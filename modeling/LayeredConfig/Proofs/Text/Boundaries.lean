import LayeredConfig.Proofs.Text.ByteOrder
import Mathlib.Data.List.Infix

/-!
# Places between characters

A place in a text is the number of bytes in front of it.  A text can be cut only between its characters (`slice?`).  A
character of ASCII is a byte of its own, and the bytes of any other one are all greater than these.  So to look for such
characters byte by byte is to look for them character by character (`encode_prefix_iff`), and the places where one
starts and ends are places between characters (`exists_of_getElem?`).
-/

namespace LayeredConfig.Text

/-- The bytes of some characters. -/
def encode (cs : List Char) : List UInt8 := cs.flatMap String.utf8EncodeChar

/-- The number of bytes of some characters. -/
def byteSize (cs : List Char) : Nat := (String.ofList cs).utf8ByteSize

/-- Whether a place is in a text and not inside one of its characters. -/
def IsBoundary (s : String) (place : Nat) : Prop := String.Pos.Raw.IsValid s ⟨place⟩

instance (s : String) (place : Nat) : Decidable (IsBoundary s place) :=
  decidable_of_iff (String.Pos.Raw.isValid s ⟨place⟩ = true) String.Pos.Raw.isValid_eq_true_iff

/-- The part of a text between two places; nothing if the text cannot be cut there. -/
def slice? (s : String) (start stop : Nat) : Option String :=
  if h : start ≤ stop ∧ IsBoundary s start ∧ IsBoundary s stop then
    some (s.extract ⟨⟨start⟩, h.2.1⟩ ⟨⟨stop⟩, h.2.2⟩)
  else none

/-- The place where the bytes of a pattern stand in a text for the first time. -/
def find? (pattern s : String) : Option Nat := (bytes s).tails.findIdx? (bytes pattern).isPrefixOf

section

variable {s : String} {cs ds : List Char} {c : Char} {i : Nat} {b : UInt8}

@[simp] theorem encode_nil : encode [] = [] := rfl

@[simp] theorem encode_cons (c : Char) (cs : List Char) : encode (c :: cs) = String.utf8EncodeChar c ++ encode cs := rfl

@[simp] theorem encode_append (cs ds : List Char) : encode (cs ++ ds) = encode cs ++ encode ds :=
  List.flatMap_append

theorem bytes_ofList (cs : List Char) : bytes (String.ofList cs) = encode cs := by
  rw [bytes_eq, String.toList_ofList, encode]

@[simp] theorem byteSize_nil : byteSize [] = 0 := rfl

@[simp] theorem byteSize_cons (c : Char) (cs : List Char) : byteSize (c :: cs) = c.utf8Size + byteSize cs := by
  rw [byteSize, String.ofList_cons, String.utf8ByteSize_append, String.utf8ByteSize_singleton, byteSize]

@[simp] theorem byteSize_append (cs ds : List Char) : byteSize (cs ++ ds) = byteSize cs + byteSize ds := by
  rw [byteSize, String.ofList_append, String.utf8ByteSize_append, byteSize, byteSize]

theorem length_encode (cs : List Char) : (encode cs).length = byteSize cs := by
  induction cs with
  | nil => rfl
  | cons c cs ih => rw [encode_cons, List.length_append, String.length_utf8EncodeChar, ih, byteSize_cons]

/-! ### Cutting -/

/-- The places between characters are those where a part of the characters ends. -/
private theorem isBoundary_ofList_iff : IsBoundary (String.ofList cs) i ↔ ∃ ds es, cs = ds ++ es ∧ byteSize ds = i := by
  rw [IsBoundary, String.Pos.Raw.isValid_ofList]
  constructor
  · rintro ⟨n, hn⟩
    exact ⟨cs.take n, cs.drop n, (List.take_append_drop n cs).symm, hn.symm⟩
  · rintro ⟨ds, es, rfl, rfl⟩
    exact ⟨ds.length, by rw [List.take_left]; rfl⟩

theorem isBoundary_byteSize (ds es : List Char) : IsBoundary (String.ofList (ds ++ es)) (byteSize ds) :=
  isBoundary_ofList_iff.2 ⟨ds, es, rfl, rfl⟩

/-- What stands between two parts of a text is cut out of it. -/
theorem slice?_ofList (before inside after : List Char) :
    slice? (String.ofList (before ++ inside ++ after)) (byteSize before) (byteSize before + byteSize inside) =
      some (String.ofList inside) := by
  have hstart : IsBoundary (String.ofList (before ++ inside ++ after)) (byteSize before) := by
    rw [List.append_assoc]
    exact isBoundary_byteSize _ _
  have hstop : IsBoundary (String.ofList (before ++ inside ++ after)) (byteSize before + byteSize inside) := by
    rw [← byteSize_append]
    exact isBoundary_byteSize _ _
  rw [slice?, dif_pos ⟨Nat.le_add_right _ _, hstart, hstop⟩]
  congr 1
  have hsize (cs : List Char) : byteSize cs = (String.ofList cs).toByteArray.size := String.size_toByteArray.symm
  have htext : (String.ofList (before ++ inside ++ after)).toByteArray = (String.ofList before).toByteArray ++
      ((String.ofList inside).toByteArray ++ (String.ofList after).toByteArray) := by
    rw [List.append_assoc, String.ofList_append, String.ofList_append, String.toByteArray_append,
      String.toByteArray_append]
  rw [← String.toByteArray_inj, String.toByteArray_extract]
  show (String.ofList (before ++ inside ++ after)).toByteArray.extract (byteSize before + 0)
    (byteSize before + byteSize inside) = (String.ofList inside).toByteArray
  rw [htext, hsize before, hsize inside, ByteArray.extract_append_size_add, ByteArray.extract_append_eq_left rfl]

theorem slice?_before (before after : List Char) :
    slice? (String.ofList (before ++ after)) 0 (byteSize before) = some (String.ofList before) := by
  have h := slice?_ofList [] before after
  rwa [List.nil_append, byteSize_nil, Nat.zero_add] at h

theorem slice?_after (before after : List Char) :
    slice? (String.ofList (before ++ after)) (byteSize before) (String.ofList (before ++ after)).utf8ByteSize =
      some (String.ofList after) := by
  have h := slice?_ofList before after []
  rwa [List.append_nil, ← byteSize_append] at h

/-! ### Characters of ASCII -/

theorem utf8EncodeChar_of_lt (h : c.toNat < 128) : String.utf8EncodeChar c = [UInt8.ofNat c.toNat] := by
  obtain ⟨n, -, hleast, -, hbytes⟩ := utf8EncodeChar_eq c
  cases n with
  | zero => simpa [continuing, leadingMark] using hbytes
  | succ n =>
    have hmono : leastNumber 1 ≤ leastNumber (n + 1) := leastNumber_mono (Nat.succ_le_succ (Nat.zero_le n))
    exact absurd (Nat.le_trans hmono hleast) (Nat.not_le.2 h)

private theorem le_of_mem_continuing {v n : Nat} (h : b ∈ continuing v n) : 128 ≤ b.toNat := by
  induction n with
  | zero => nomatch h
  | succ n ih =>
    rcases List.mem_cons.1 h with rfl | h
    · rw [UInt8.toNat_ofNat']
      omega
    · exact ih h

/-- The bytes of other characters are greater than those of ASCII. -/
theorem le_of_mem_utf8EncodeChar (h : 128 ≤ c.toNat) (hb : b ∈ String.utf8EncodeChar c) : 128 ≤ b.toNat := by
  obtain ⟨n, hn, -, hlt, hbytes⟩ := utf8EncodeChar_eq c
  rw [hbytes] at hb
  rcases List.mem_cons.1 hb with rfl | hb
  · have hword := leading_lt_256 hn hlt
    rw [UInt8.toNat_ofNat', Nat.mod_eq_of_lt hword]
    match n, hn with
    | 0, _ => exact absurd hlt (Nat.not_lt.2 h)
    | 1, _ | 2, _ | 3, _ => simp only [leadingMark]; omega
  · exact le_of_mem_continuing hb

theorem utf8Size_of_lt (h : c.toNat < 128) : c.utf8Size = 1 := by
  rw [← String.length_utf8EncodeChar, utf8EncodeChar_of_lt h]
  rfl

/-- A byte of ASCII in a text is a character. -/
theorem exists_of_getElem? (hb : b.toNat < 128) (h : (encode cs)[i]? = some b) :
    ∃ before c after, cs = before ++ c :: after ∧ byteSize before = i ∧ c.toNat = b.toNat := by
  induction cs generalizing i with
  | nil => simp at h
  | cons c cs ih =>
    rw [encode_cons] at h
    by_cases hi : i < (String.utf8EncodeChar c).length
    · rw [List.getElem?_append_left hi] at h
      have hc : c.toNat < 128 := by
        by_contra hge
        exact absurd (le_of_mem_utf8EncodeChar (Nat.not_lt.1 hge) (List.mem_of_getElem? h)) (Nat.not_le.2 hb)
      rw [utf8EncodeChar_of_lt hc] at h hi
      obtain rfl : i = 0 := Nat.lt_one_iff.1 hi
      obtain rfl : UInt8.ofNat c.toNat = b := by simpa using h
      exact ⟨[], c, cs, rfl, rfl, by rw [UInt8.toNat_ofNat']; omega⟩
    · rw [List.getElem?_append_right (Nat.not_lt.1 hi)] at h
      obtain ⟨before, d, after, rfl, hplace, hd⟩ := ih h
      refine ⟨c :: before, d, after, rfl, ?_, hd⟩
      rw [String.length_utf8EncodeChar] at hi hplace
      rw [byteSize_cons]
      omega

private theorem eq_nil_of_byteSize_eq_zero (h : byteSize cs = 0) : cs = [] := by
  cases cs with
  | nil => rfl
  | cons c cs =>
    have hpos := c.utf8Size_pos
    rw [byteSize_cons] at h
    omega

/-- A text whose first byte is a character of ASCII starts with this character. -/
private theorem eq_cons_of_getElem?_zero {d : Char} (hd : d.toNat < 128)
    (h : (encode cs)[0]? = some (UInt8.ofNat d.toNat)) : ∃ after, cs = d :: after := by
  have hbyte : (UInt8.ofNat d.toNat).toNat = d.toNat := by rw [UInt8.toNat_ofNat']; omega
  obtain ⟨before, c, after, rfl, hplace, hc⟩ := exists_of_getElem? (by omega) h
  obtain rfl := eq_nil_of_byteSize_eq_zero hplace
  obtain rfl : c = d := Char.toNat_inj.1 (hc.trans hbyte)
  exact ⟨after, rfl⟩

/-- Characters of ASCII stand at the start of the bytes of a text exactly if they stand at the start of the text. -/
theorem encode_prefix_iff (hds : ∀ d ∈ ds, d.toNat < 128) : encode ds <+: encode cs ↔ ds <+: cs := by
  constructor
  · intro h
    induction ds generalizing cs with
    | nil => exact List.nil_prefix
    | cons d ds ih =>
      have hd := hds d List.mem_cons_self
      rw [encode_cons, utf8EncodeChar_of_lt hd, List.singleton_append] at h
      obtain ⟨cs, rfl⟩ : ∃ after, cs = d :: after := by
        obtain ⟨bs, hbs⟩ := h
        exact eq_cons_of_getElem?_zero hd (by rw [← hbs]; rfl)
      rw [encode_cons, utf8EncodeChar_of_lt hd, List.singleton_append, List.cons_prefix_cons] at h
      exact List.cons_prefix_cons.2 ⟨rfl, ih (fun e he => hds e (List.mem_cons_of_mem d he)) h.2⟩
  · rintro ⟨es, rfl⟩
    rw [encode_append]
    exact List.prefix_append _ _

/-! ### Looking for characters of ASCII -/

private theorem findIdx?_tails_append {p : List UInt8 → Bool} {xs bs : List UInt8}
    (h : ∀ ys, ys ≠ [] → ys <:+ xs → p (ys ++ bs) = false) :
    (xs ++ bs).tails.findIdx? p = (bs.tails.findIdx? p).map (xs.length + ·) := by
  induction xs with
  | nil => simp
  | cons x xs ih =>
    have hx : p (x :: xs ++ bs) = false := h _ (List.cons_ne_nil _ _) (List.suffix_refl _)
    have htails : (x :: xs ++ bs).tails = (x :: xs ++ bs) :: (xs ++ bs).tails := rfl
    rw [htails, List.findIdx?_cons, hx, if_neg Bool.false_ne_true,
      ih fun ys hne hys => h ys hne (hys.trans (List.suffix_cons _ _)), Option.map_map]
    congr 1
    funext n
    simp only [Function.comp_apply, List.length_cons]
    omega

private theorem findIdx?_tails_of_pos {p : List UInt8 → Bool} {bs : List UInt8} (h : p bs = true) :
    bs.tails.findIdx? p = some 0 := by
  cases bs <;> simp [List.findIdx?_cons, h]

/-- Inside a character, no characters of ASCII start. -/
private theorem eq_of_encode_prefix (hne : ds ≠ []) (hds : ∀ d ∈ ds, d.toNat < 128) {ys bs : List UInt8} (hys : ys ≠ [])
    (hsuffix : ys <:+ String.utf8EncodeChar c) (h : encode ds <+: ys ++ bs) : ys = String.utf8EncodeChar c := by
  obtain ⟨d, ds, rfl⟩ := List.exists_cons_of_ne_nil hne
  obtain ⟨y, ys, rfl⟩ := List.exists_cons_of_ne_nil hys
  have hd := hds d List.mem_cons_self
  rw [encode_cons, utf8EncodeChar_of_lt hd, List.singleton_append, List.cons_append, List.cons_prefix_cons] at h
  have hc : c.toNat < 128 := by
    by_contra hge
    have hhigh := le_of_mem_utf8EncodeChar (Nat.not_lt.1 hge) (hsuffix.subset List.mem_cons_self)
    rw [← h.1, UInt8.toNat_ofNat'] at hhigh
    omega
  rw [utf8EncodeChar_of_lt hc] at hsuffix ⊢
  exact hsuffix.eq_of_length_le (Nat.succ_le_succ (Nat.zero_le _))

/-- Characters of ASCII are found at the first character where they stand. -/
theorem find?_ofList_cons (hne : ds ≠ []) (hds : ∀ d ∈ ds, d.toNat < 128) (c : Char) (cs : List Char) :
    find? (String.ofList ds) (String.ofList (c :: cs)) =
      if ds <+: c :: cs then some 0 else (find? (String.ofList ds) (String.ofList cs)).map (c.utf8Size + ·) := by
  simp only [find?, bytes_ofList]
  by_cases hprefix : ds <+: c :: cs
  · rw [if_pos hprefix]
    exact findIdx?_tails_of_pos (List.isPrefixOf_iff_prefix.2 ((encode_prefix_iff hds).2 hprefix))
  · rw [if_neg hprefix, encode_cons, findIdx?_tails_append, String.length_utf8EncodeChar]
    intro ys hys hsuffix
    rw [← Bool.not_eq_true, List.isPrefixOf_iff_prefix]
    intro h
    obtain rfl := eq_of_encode_prefix hne hds hys hsuffix h
    exact hprefix ((encode_prefix_iff hds).1 h)

theorem find?_ofList_nil (hne : ds ≠ []) : find? (String.ofList ds) (String.ofList []) = none := by
  have hbytes : (encode ds).isPrefixOf [] = false := by
    rw [← Bool.not_eq_true, List.isPrefixOf_iff_prefix, List.prefix_nil]
    intro h
    refine hne (eq_nil_of_byteSize_eq_zero ?_)
    rw [← length_encode, h, List.length_nil]
  rw [find?, bytes_ofList, bytes_ofList, encode_nil, List.tails, List.findIdx?_cons, hbytes]
  rfl

end

end LayeredConfig.Text
