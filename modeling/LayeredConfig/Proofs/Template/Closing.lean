import LayeredConfig.Template
import LayeredConfig.Proofs.Text.Boundaries
import Mathlib.Order.Bounds.Basic

/-!
# Closing a reference byte by byte

The brace that closes a reference is looked for in the bytes of a text, with a count of the openings on the way.  It is
the first one that leaves one more closing brace than openings behind the opening of the reference
(`isFirst_closingFrom`), and it is the brace that `splitClose` finds among the characters (`closingFrom_encode`).  So
it is a character, whatever the other characters of the text are.
-/

namespace LayeredConfig.Template

open Text (bytes byteSize encode IsBoundary)

/-- Whether the two bytes that open a reference are at a place.  The bytes 36, 123 and 125 are the dollar sign and the
two braces. -/
def OpensAt (bs : List UInt8) (i : Nat) : Prop := bs[i]? = some 36 ∧ bs[i + 1]? = some 123

instance (bs : List UInt8) (i : Nat) : Decidable (OpensAt bs i) := inferInstanceAs (Decidable (_ ∧ _))

/-- The place, from `i` on, of the byte that closes the last of `depth` openings. -/
def closingFrom (bs : List UInt8) (depth i : Nat) : Option Nat :=
  if h : i < bs.length then
    if OpensAt bs i then closingFrom bs (depth + 1) (i + 2)
    else if bs[i] = 125 then
      -- A search that starts with an open reference ends before the count goes below zero.
      if depth - 1 = 0 then some i else closingFrom bs (depth - 1) (i + 1)
    else closingFrom bs depth (i + 1)
  else none
termination_by bs.length - i

/-- The place of the brace that closes the reference opened at `opening`. -/
def closingBrace? (value : String) (opening : Nat) : Option Nat := closingFrom (bytes value) 1 (opening + 2)

/-- How many references are opened in some bytes. -/
def openings (bs : List UInt8) : Nat := (bs.zip bs.tail).count (36, 123)

/-- Whether there is a closing brace at `i`, and `depth` more of them than openings from `start` up to it. -/
def ClosesAt (bs : List UInt8) (depth start i : Nat) : Prop :=
  start ≤ i ∧ bs[i]? = some 125 ∧
    (bs.extract start (i + 1)).count 125 = openings (bs.extract start (i + 1)) + depth

/-- The least number with a property, or that there is none. -/
def IsFirst (p : Nat → Prop) : Option Nat → Prop
  | none => ∀ i, ¬ p i
  | some i => IsLeast {i | p i} i

variable {bs : List UInt8} {depth i k : Nat} {b : UInt8} {value : String} {opening : Nat}

/-! ### The first brace that closes -/

theorem IsFirst.eq_some_iff {p : Nat → Prop} {o : Option Nat} (h : IsFirst p o) : o = some i ↔ IsLeast {i | p i} i := by
  cases o with
  | none => exact ⟨nofun, fun hi => absurd hi.1 (h i)⟩
  | some j =>
    rw [Option.some.injEq]
    exact ⟨fun hij => hij ▸ h, fun hi => IsLeast.unique h hi⟩

theorem IsFirst.eq_none_iff {p : Nat → Prop} {o : Option Nat} (h : IsFirst p o) : o = none ↔ ∀ i, ¬ p i := by
  cases o with
  | none => exact ⟨fun _ => h, fun _ => rfl⟩
  | some j => exact ⟨nofun, fun hnone => absurd h.1 (hnone j)⟩

private theorem extract_eq_cons (h : bs[i]? = some b) (hik : i ≤ k) :
    bs.extract i (k + 1) = b :: bs.extract (i + 1) (k + 1) := by
  obtain ⟨hi, rfl⟩ := List.getElem?_eq_some_iff.1 h
  rw [List.extract_eq_take_drop, List.extract_eq_take_drop, List.drop_eq_getElem_cons hi,
    Nat.succ_sub hik, List.take_succ_cons, Nat.add_sub_add_right]

private theorem extract_self (h : bs[i]? = some b) : bs.extract i (i + 1) = [b] := by
  rw [extract_eq_cons h (Nat.le_refl i), List.extract_eq_take_drop, Nat.sub_self, List.take_zero]

private theorem openings_cons (b : UInt8) (bs : List UInt8) :
    openings (b :: bs) = openings bs + if b = 36 ∧ bs[0]? = some 123 then 1 else 0 := by
  cases bs with
  | nil => simp [openings]
  | cons c bs => simp [openings, List.count_cons]

private theorem openings_extract (h : bs[i]? = some b) (hik : i < k) :
    openings (bs.extract i (k + 1)) = openings (bs.extract (i + 1) (k + 1)) + if OpensAt bs i then 1 else 0 := by
  have hnext : (bs.extract (i + 1) (k + 1))[0]? = bs[i + 1]? := by
    rw [List.extract_eq_take_drop, List.getElem?_take_of_lt (by omega), List.getElem?_drop, Nat.add_zero]
  have hopens : OpensAt bs i ↔ b = 36 ∧ bs[i + 1]? = some 123 := by rw [OpensAt, h, Option.some.injEq]
  rw [extract_eq_cons h (Nat.le_of_lt hik), openings_cons, hnext]
  simp only [hopens]

private theorem ClosesAt.eq_of_not_lt (h : ClosesAt bs depth i k) (hik : ¬ i < k) :
    k = i ∧ bs[i]? = some 125 ∧ depth = 1 := by
  obtain ⟨hle, hbyte, hcount⟩ := h
  obtain rfl : k = i := by omega
  rw [extract_self hbyte] at hcount
  refine ⟨rfl, hbyte, ?_⟩
  simpa [openings] using hcount.symm

/-- Behind a byte that is no closing brace, one more is to be closed if the byte opens a reference. -/
private theorem closesAt_succ (h : bs[i]? = some b) (hb : b ≠ 125) :
    ClosesAt bs depth i k ↔ ClosesAt bs (depth + if OpensAt bs i then 1 else 0) (i + 1) k := by
  by_cases hik : i < k
  · have hcons := extract_eq_cons h (Nat.le_of_lt hik)
    rw [ClosesAt, ClosesAt, openings_extract h hik, hcons, List.count_cons_of_ne hb]
    exact and_congr (by omega) (and_congr_right fun _ => by omega)
  · refine ⟨fun hk => ?_, fun hk => absurd hk.1 hik⟩
    have hbyte := (hk.eq_of_not_lt hik).2.1
    rw [h] at hbyte
    exact absurd (Option.some.inj hbyte) hb

/-- A closing brace closes one of the references that are open. -/
private theorem closesAt_succ_of_closing (h : bs[i]? = some 125) (hdepth : 1 < depth) :
    ClosesAt bs depth i k ↔ ClosesAt bs (depth - 1) (i + 1) k := by
  by_cases hik : i < k
  · have ho : ¬ OpensAt bs i := by simp [OpensAt, h]
    have hcons := extract_eq_cons h (Nat.le_of_lt hik)
    rw [ClosesAt, ClosesAt, openings_extract h hik, if_neg ho, hcons, List.count_cons_self]
    exact and_congr (by omega) (and_congr_right fun _ => by omega)
  · refine ⟨fun hk => ?_, fun hk => absurd hk.1 hik⟩
    have hlast := (hk.eq_of_not_lt hik).2.2
    omega

/-- The search finds the first brace that closes `depth` references. -/
theorem isFirst_closingFrom (hdepth : 0 < depth) : IsFirst (ClosesAt bs depth i) (closingFrom bs depth i) := by
  -- What the search passes closes nothing, so the same braces close from behind it, with the new count.
  fun_induction closingFrom bs depth i with
  | case1 depth i h ho ih =>
    have hskip : ClosesAt bs depth i = ClosesAt bs (depth + 1) (i + 2) := by
      funext k
      have hnot : ¬ OpensAt bs (i + 1) := by simp [OpensAt, ho.2]
      rw [closesAt_succ ho.1 (by decide), if_pos ho, closesAt_succ ho.2 (by decide), if_neg hnot]
    rw [hskip]
    exact ih (Nat.succ_pos _)
  | case2 depth i h ho hc hlast =>
    obtain rfl : depth = 1 := by omega
    have hbyte : bs[i]? = some 125 := by rw [List.getElem?_eq_getElem h, hc]
    refine ⟨⟨Nat.le_refl i, hbyte, ?_⟩, fun k hk => hk.1⟩
    rw [extract_self hbyte]
    rfl
  | case3 depth i h ho hc hmore ih =>
    have hskip : ClosesAt bs depth i = ClosesAt bs (depth - 1) (i + 1) := by
      funext k
      rw [closesAt_succ_of_closing (by rw [List.getElem?_eq_getElem h, hc]) (by omega)]
    rw [hskip]
    exact ih (Nat.pos_of_ne_zero hmore)
  | case4 depth i h ho hc ih =>
    have hskip : ClosesAt bs depth i = ClosesAt bs depth (i + 1) := by
      funext k
      rw [closesAt_succ (List.getElem?_eq_getElem h) hc, if_neg ho, Nat.add_zero]
    rw [hskip]
    exact ih hdepth
  | case5 depth i h =>
    intro k hk
    obtain ⟨hk', -⟩ := List.getElem?_eq_some_iff.1 hk.2.1
    have hle := hk.1
    omega

/-! ### The same brace among the characters -/

variable {cs before after : List Char}

private theorem getElem?_encode_append (before cs : List Char) (i : Nat) :
    (encode (before ++ cs))[byteSize before + i]? = (encode cs)[i]? := by
  rw [Text.encode_append, List.getElem?_append_right (by rw [Text.length_encode]; exact Nat.le_add_right _ _),
    Text.length_encode, Nat.add_sub_cancel_left]

theorem not_prefix_of_not_opens {c : Char} (h : ∀ rest, c = '$' → cs = '{' :: rest → False) :
    ¬ ['$', '{'] <+: c :: cs := by
  rintro ⟨rest, hrest⟩
  obtain ⟨hdollar, hbrace⟩ := List.cons.inj hrest
  exact h rest hdollar.symm hbrace.symm

/-- A reference is opened where its two characters stand. -/
private theorem opensAt_encode_iff : OpensAt (encode (before ++ cs)) (byteSize before) ↔ ['$', '{'] <+: cs := by
  have hfirst : (encode (before ++ cs))[byteSize before]? = (encode cs)[0]? := getElem?_encode_append before cs 0
  rw [← Text.encode_prefix_iff (by simp), OpensAt, getElem?_encode_append, hfirst]
  generalize encode cs = bs
  show _ ↔ [36, 123] <+: bs
  match bs with
  | [] => simp
  | [b] => simp [List.cons_prefix_cons]
  | b :: c :: bs =>
    simp only [List.getElem?_cons_zero, List.getElem?_cons_succ, Option.some.injEq, List.cons_prefix_cons,
      List.nil_prefix, and_true]
    exact and_congr eq_comm eq_comm

theorem exists_of_opensAt (h : OpensAt (encode cs) i) :
    ∃ before after, cs = before ++ '$' :: '{' :: after ∧ byteSize before = i := by
  obtain ⟨before, c, after, rfl, rfl, -⟩ := Text.exists_of_getElem? (by decide) h.1
  obtain ⟨rest, hrest⟩ := opensAt_encode_iff.1 h
  exact ⟨before, rest, by rw [← hrest]; rfl, rfl⟩

private theorem closingFrom_of_length_le (h : bs.length ≤ i) : closingFrom bs depth i = none := by
  rw [closingFrom, dif_neg (Nat.not_lt.2 h)]

private theorem closingFrom_of_opensAt (h : OpensAt bs i) :
    closingFrom bs depth i = closingFrom bs (depth + 1) (i + 2) := by
  obtain ⟨hi, -⟩ := List.getElem?_eq_some_iff.1 h.1
  rw [closingFrom, dif_pos hi, if_pos h]

private theorem closingFrom_of_closing (h : bs[i]? = some 125) (depth : Nat) :
    closingFrom bs (depth + 1) i = if depth = 0 then some i else closingFrom bs depth (i + 1) := by
  obtain ⟨hi, hbyte⟩ := List.getElem?_eq_some_iff.1 h
  have ho : ¬ OpensAt bs i := by simp [OpensAt, h]
  rw [closingFrom, dif_pos hi, if_neg ho, if_pos hbyte, Nat.add_sub_cancel]

/-- Whether a byte neither closes nor opens a reference. -/
def IsPlainAt (bs : List UInt8) (i : Nat) : Prop := ∃ b, bs[i]? = some b ∧ b ≠ 125 ∧ ¬ OpensAt bs i

/-- Bytes that neither close nor open a reference are passed. -/
private theorem closingFrom_add {n : Nat} (h : ∀ j < n, IsPlainAt bs (i + j)) :
    closingFrom bs depth i = closingFrom bs depth (i + n) := by
  induction n with
  | zero => rfl
  | succ n ih =>
    obtain ⟨b, hbyte, hb, ho⟩ := h n (Nat.lt_succ_self n)
    obtain ⟨hi, rfl⟩ := List.getElem?_eq_some_iff.1 hbyte
    rw [ih fun j hj => h j (Nat.lt_succ_of_lt hj), closingFrom, dif_pos hi, if_neg ho, if_neg hb, Nat.add_assoc]

/-- A character that neither closes nor opens a reference has no byte that does. -/
private theorem isPlainAt_encode {c : Char} (hc : c ≠ '}') (ho : ¬ ['$', '{'] <+: c :: cs) {j : Nat}
    (hj : j < c.utf8Size) : IsPlainAt (encode (before ++ c :: cs)) (byteSize before + j) := by
  have hlt : j < (String.utf8EncodeChar c).length := by rwa [String.length_utf8EncodeChar]
  have hbyte : (encode (before ++ c :: cs))[byteSize before + j]? = some (String.utf8EncodeChar c)[j] := by
    rw [getElem?_encode_append, Text.encode_cons, List.getElem?_append_left hlt, List.getElem?_eq_getElem hlt]
  refine ⟨_, hbyte, ?_⟩
  by_cases hascii : c.toNat < 128
  · obtain rfl : j = 0 := by rw [Text.utf8Size_of_lt hascii] at hj; omega
    refine ⟨fun hbrace => hc (Char.toNat_inj.1 ?_), fun hopens => ho (opensAt_encode_iff.1 hopens)⟩
    have hnat := congrArg UInt8.toNat hbrace
    simp only [Text.utf8EncodeChar_of_lt hascii, List.getElem_cons_zero, UInt8.toNat_ofNat'] at hnat
    rwa [Nat.mod_eq_of_lt (by omega)] at hnat
  · have hhigh := Text.le_of_mem_utf8EncodeChar (Nat.not_lt.1 hascii) (List.getElem_mem hlt)
    refine ⟨fun hbrace => ?_, fun hopens => ?_⟩
    · rw [hbrace] at hhigh
      exact absurd hhigh (by decide)
    · have hdollar := hopens.1
      rw [hbyte, Option.some.injEq] at hdollar
      rw [hdollar] at hhigh
      exact absurd hhigh (by decide)

/-- A search that passed some characters goes on behind them. -/
private theorem closingFrom_passed {passed : List Char} {found : Option (List Char × List Char)}
    (h : closingFrom (encode ((before ++ passed) ++ cs)) depth (byteSize (before ++ passed)) =
      found.map fun p => byteSize (before ++ passed) + byteSize p.1) :
    closingFrom (encode (before ++ (passed ++ cs))) depth (byteSize before + byteSize passed) =
      (found.map fun p => (passed ++ p.1, p.2)).map fun p => byteSize before + byteSize p.1 := by
  rw [List.append_assoc, Text.byteSize_append] at h
  rw [h, Option.map_map]
  congr 1
  funext p
  rw [Function.comp_apply, Text.byteSize_append, Nat.add_assoc]

/-- The brace that closes a reference is found where it stands among the characters. -/
theorem closingFrom_encode (before cs : List Char) (depth : Nat) :
    closingFrom (encode (before ++ cs)) (depth + 1) (byteSize before) =
      (splitClose depth cs).map fun p => byteSize before + byteSize p.1 := by
  fun_induction splitClose depth cs generalizing before with
  | case1 depth =>
    rw [closingFrom_of_length_le (by rw [List.append_nil, Text.length_encode]), Option.map_none]
  | case2 depth cs ih =>
    have hopens : OpensAt (encode (before ++ '$' :: '{' :: cs)) (byteSize before) :=
      opensAt_encode_iff.2 (List.prefix_append _ _)
    rw [closingFrom_of_opensAt hopens]
    exact closingFrom_passed (ih (before ++ ['$', '{']))
  | case3 cs hne =>
    rw [closingFrom_of_closing (getElem?_encode_append before _ 0), if_pos rfl]
    rfl
  | case4 cs depth hne ih =>
    rw [closingFrom_of_closing (getElem?_encode_append before _ 0), if_neg (Nat.succ_ne_zero depth)]
    exact closingFrom_passed (ih (before ++ ['}']))
  | case5 depth c cs hne hc ih =>
    have hsize : c.utf8Size = byteSize [c] := (Text.byteSize_cons c []).symm
    rw [closingFrom_add fun j hj => isPlainAt_encode hc (not_prefix_of_not_opens hne) hj, hsize]
    exact closingFrom_passed (ih (before ++ [c]))

theorem closingBrace?_ofList (before after : List Char) :
    closingBrace? (String.ofList (before ++ '$' :: '{' :: after)) (byteSize before) =
      (splitClose 0 after).map fun p => byteSize before + 2 + byteSize p.1 := by
  have hclosing := closingFrom_encode (before ++ ['$', '{']) after 0
  rw [List.append_assoc, Text.byteSize_append] at hclosing
  rw [closingBrace?, Text.bytes_ofList]
  exact hclosing

/-- The brace that closes a reference is a character: the text can be cut in front of it and behind it. -/
theorem isBoundary_of_closingBrace? (ho : OpensAt (bytes value) opening) (h : closingBrace? value opening = some i) :
    IsBoundary value i ∧ IsBoundary value (i + 1) := by
  obtain ⟨cs, rfl⟩ : ∃ cs, value = String.ofList cs := ⟨value.toList, String.ofList_toList.symm⟩
  rw [Text.bytes_ofList] at ho
  obtain ⟨before, after, rfl, rfl⟩ := exists_of_opensAt ho
  rw [closingBrace?_ofList] at h
  obtain ⟨⟨body, rest⟩, hclose, rfl⟩ := Option.map_eq_some_iff.1 h
  have htext : before ++ '$' :: '{' :: after = (before ++ '$' :: '{' :: body) ++ '}' :: rest := by
    rw [splitClose_eq_some hclose, List.append_assoc]
    rfl
  rw [htext]
  have hsize : byteSize (before ++ '$' :: '{' :: body) = byteSize before + 2 + byteSize body := by
    rw [Nat.add_assoc, Text.byteSize_append]
    exact congrArg (byteSize before + ·) (Text.byteSize_append ['$', '{'] body)
  constructor
  · rw [← hsize]
    exact Text.isBoundary_byteSize _ _
  · have hbehind := Text.isBoundary_byteSize ((before ++ '$' :: '{' :: body) ++ ['}']) rest
    rw [Text.byteSize_append, hsize, List.append_assoc] at hbehind
    exact hbehind

end LayeredConfig.Template
