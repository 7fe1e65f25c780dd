import Mathlib.Order.Monotone.Basic

/-!
# The order of bytes

Texts are in the order of their bytes in UTF-8 (`bytes_le_iff`): of two characters, the later one has the greater bytes
(`utf8EncodeChar_lt`).
-/

namespace LayeredConfig.Text

/-- The bytes of a text. -/
def bytes (s : String) : List UInt8 := s.toUTF8.data.toList

theorem bytes_eq (s : String) : bytes s = s.toList.flatMap String.utf8EncodeChar := by
  rw [bytes, String.toUTF8_eq_toByteArray, ← String.utf8Encode_toList]
  exact List.toList_data_toByteArray

/-! ### Characters -/

/-- The last digits of a number in base 64, each as a byte that continues a character. -/
def continuing (v : Nat) : Nat → List UInt8
  | 0 => []
  | n + 1 => UInt8.ofNat (v / 64 ^ n % 64 + 128) :: continuing v n

/-- The mark of a first byte that some bytes continue. -/
def leadingMark : Nat → Nat
  | 0 => 0
  | 1 => 192
  | 2 => 224
  | _ => 240

/-- The least number of a character that some bytes continue. -/
def leastNumber : Nat → Nat
  | 0 => 0
  | 1 => 128
  | 2 => 2048
  | 3 => 65536
  | _ => 1114112

private theorem ofNat_cons_lt_cons {a b : Nat} (h : a < b) (hb : b < 256) (x y : List UInt8) :
    UInt8.ofNat a :: x < UInt8.ofNat b :: y := by
  rw [List.cons_lt_cons_iff, UInt8.lt_iff_toNat_lt, UInt8.toNat_ofNat', UInt8.toNat_ofNat',
    Nat.mod_eq_of_lt hb, Nat.mod_eq_of_lt (Nat.lt_trans h hb)]
  exact .inl h

/-- Of two numbers, the digits decide from the first on. -/
private theorem digit_lt_or {v w m : Nat} (h : v % (m * 64) < w % (m * 64)) :
    v / m % 64 < w / m % 64 ∨ v / m % 64 = w / m % 64 ∧ v % m < w % m := by
  rw [Nat.mod_mul, Nat.mod_mul] at h
  rcases Nat.lt_trichotomy (v / m % 64) (w / m % 64) with hlt | heq | hgt
  · exact .inl hlt
  · rw [heq] at h
    exact .inr ⟨heq, by omega⟩
  · have hm : w % m < m := Nat.mod_lt _ (by rcases Nat.eq_zero_or_pos m with rfl | hm <;> simp_all)
    have hle : m * (w / m % 64) + m ≤ m * (v / m % 64) := Nat.mul_le_mul_left m hgt
    omega

private theorem continuing_lt {v w n : Nat} (h : v % 64 ^ n < w % 64 ^ n) (x y : List UInt8) :
    continuing v n ++ x < continuing w n ++ y := by
  induction n with
  | zero => simp [Nat.mod_one] at h
  | succ n ih =>
    rw [Nat.pow_succ] at h
    rw [continuing, continuing, List.cons_append, List.cons_append]
    rcases digit_lt_or h with hlt | ⟨heq, hrest⟩
    · exact ofNat_cons_lt_cons (by omega) (by omega) _ _
    · rw [heq]
      exact List.cons_lt_cons_iff.2 (.inr ⟨rfl, ih hrest⟩)

/-- The first byte of a character holds the first digits of its number, and the mark of how many bytes follow. -/
theorem utf8EncodeChar_eq (c : Char) : ∃ n ≤ 3, leastNumber n ≤ c.toNat ∧ c.toNat < leastNumber (n + 1) ∧
    String.utf8EncodeChar c = UInt8.ofNat (c.toNat / 64 ^ n + leadingMark n) :: continuing c.toNat n := by
  have hmax : c.toNat < 1114112 := by
    rcases c.valid with h | h
    · exact Nat.lt_trans h (by decide)
    · exact h.2
  rw [← Char.toNat_val] at hmax ⊢
  unfold String.utf8EncodeChar
  generalize c.val.toNat = v at hmax
  dsimp only
  split
  · refine ⟨0, by decide, Nat.zero_le v, by simp only [leastNumber]; omega, ?_⟩
    simp [leadingMark, continuing]
  · split
    · refine ⟨1, by decide, by simp only [leastNumber]; omega, by simp only [leastNumber]; omega, ?_⟩
      have hfirst : v / 64 % 32 = v / 64 := Nat.mod_eq_of_lt (by omega)
      simp [hfirst, leadingMark, continuing]
    · split
      · refine ⟨2, by decide, by simp only [leastNumber]; omega, by simp only [leastNumber]; omega, ?_⟩
        have hfirst : v / 4096 % 16 = v / 4096 := Nat.mod_eq_of_lt (by omega)
        simp [hfirst, leadingMark, continuing]
      · refine ⟨3, by decide, by simp only [leastNumber]; omega, by simp only [leastNumber]; omega, ?_⟩
        have hfirst : v / 262144 % 8 = v / 262144 := Nat.mod_eq_of_lt (by omega)
        simp [hfirst, leadingMark, continuing]

theorem leastNumber_mono : Monotone leastNumber :=
  monotone_nat_of_le_succ fun
    | 0 | 1 | 2 | 3 => by decide
    | _ + 4 => Nat.le_refl _

private theorem leadingMark_mono : Monotone leadingMark :=
  monotone_nat_of_le_succ fun
    | 0 | 1 | 2 => by decide
    | _ + 3 => Nat.le_refl _

/-- A first byte is below the marks of those that more bytes continue. -/
private theorem leading_lt_mark {v m : Nat} (hm : m < 3) (hv : v < leastNumber (m + 1)) :
    v / 64 ^ m + leadingMark m < leadingMark (m + 1) := by
  match m, hm with
  | 0, _ | 1, _ | 2, _ => simp only [leastNumber, leadingMark] at *; omega

theorem leading_lt_256 {w n : Nat} (hn : n ≤ 3) (hw : w < leastNumber (n + 1)) :
    w / 64 ^ n + leadingMark n < 256 := by
  match n, hn with
  | 0, _ | 1, _ | 2, _ | 3, _ => simp only [leastNumber, leadingMark] at *; omega

/-- Of two characters, the later one has the greater bytes. -/
theorem utf8EncodeChar_lt {c d : Char} (h : c < d) (x y : List UInt8) :
    String.utf8EncodeChar c ++ x < String.utf8EncodeChar d ++ y := by
  have hlt : c.toNat < d.toNat := UInt32.lt_iff_toNat_lt.1 h
  obtain ⟨m, hm, hcleast, hc, hcbytes⟩ := utf8EncodeChar_eq c
  obtain ⟨n, hn, hdleast, hd, hdbytes⟩ := utf8EncodeChar_eq d
  rw [hcbytes, hdbytes, List.cons_append, List.cons_append]
  have hdfirst := leading_lt_256 hn hd
  rcases Nat.lt_trichotomy m n with hmn | rfl | hnm
  · have hmark := leading_lt_mark (Nat.lt_of_lt_of_le hmn hn) hc
    have hmono : leadingMark (m + 1) ≤ leadingMark n := leadingMark_mono hmn
    have hfirst : leadingMark n ≤ d.toNat / 64 ^ n + leadingMark n := Nat.le_add_left _ _
    exact ofNat_cons_lt_cons (by omega) hdfirst _ _
  · have hle : c.toNat / 64 ^ m ≤ d.toNat / 64 ^ m := Nat.div_le_div_right (Nat.le_of_lt hlt)
    rcases Nat.lt_or_eq_of_le hle with hfirst | hfirst
    · exact ofNat_cons_lt_cons (by omega) hdfirst _ _
    · have hrest : c.toNat % 64 ^ m < d.toNat % 64 ^ m := by
        have hcdigits := Nat.div_add_mod c.toNat (64 ^ m)
        have hddigits := Nat.div_add_mod d.toNat (64 ^ m)
        rw [hfirst] at hcdigits
        omega
      rw [hfirst]
      exact List.cons_lt_cons_iff.2 (.inr ⟨rfl, continuing_lt hrest x y⟩)
  · -- A later character has as many bytes at least.
    have hleast : leastNumber (n + 1) ≤ leastNumber m := leastNumber_mono hnm
    omega

/-! ### Texts -/

private theorem flatMap_lt {cs ds : List Char} (h : cs < ds) :
    cs.flatMap String.utf8EncodeChar < ds.flatMap String.utf8EncodeChar := by
  induction h with
  | nil =>
    rename_i d ds
    rw [List.flatMap_nil, List.flatMap_cons]
    cases hd : String.utf8EncodeChar d with
    | nil => exact absurd hd String.utf8EncodeChar_ne_nil
    | cons b bs => exact List.nil_lt_cons _ _
  | rel hcd =>
    rw [List.flatMap_cons, List.flatMap_cons]
    exact utf8EncodeChar_lt hcd _ _
  | cons _ ih =>
    rw [List.flatMap_cons, List.flatMap_cons]
    exact List.append_left_lt ih

private theorem bytes_lt {a b : String} (h : a < b) : bytes a < bytes b := by
  rw [bytes_eq, bytes_eq]
  exact flatMap_lt (String.lt_iff.1 h)

/-- Texts are in the order of their bytes. -/
theorem bytes_le_iff {a b : String} : bytes a ≤ bytes b ↔ a ≤ b := by
  constructor
  · intro h hba
    exact h (bytes_lt hba)
  · intro h
    by_cases hlt : a < b
    · exact List.le_of_lt (bytes_lt hlt)
    · obtain rfl : a = b := String.le_antisymm h (String.not_lt.1 hlt)
      exact List.le_refl _

end LayeredConfig.Text
