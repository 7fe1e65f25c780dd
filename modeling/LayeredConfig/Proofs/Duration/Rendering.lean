import LayeredConfig.Duration.Reader
import LayeredConfig.Proofs.Text.Ascii
import LayeredConfig.Proofs.Text.Trim

/-!
# Durations read back

The text of a duration is a single amount whose fraction has as many digits as its unit allows, so reading it cuts
nothing off.  The key facts: the digits of a fraction spell it once the zeros that were left out are put back
(`exists_zeros`), an amount is read as all the nanoseconds it stands for (`unitAmount_written`), and every duration
is read back from its text (`parse_render_self`).
-/

namespace LayeredConfig.Duration

open Text (IsSolid isBlank trim)

/-! ### Digits of a fraction -/

theorem length_paddedDigits (places n : Nat) : (paddedDigits places n).length = places := by
  induction places generalizing n with
  | zero => rfl
  | succ places ih => rw [paddedDigits, List.length_append, ih, List.length_singleton]

theorem isDigit_of_mem_paddedDigits {places n : Nat} : ∀ c ∈ paddedDigits places n, c.isDigit = true := by
  induction places generalizing n with
  | zero => exact fun c hc => nomatch hc
  | succ places ih =>
    intro c hc
    rw [paddedDigits, List.mem_append, List.mem_singleton] at hc
    rcases hc with hc | rfl
    · exact ih c hc
    · rw [Nat.isDigit_digitChar, decide_eq_true_eq]
      exact Nat.mod_lt n (by decide)

theorem ofDigits_append (cs ds : List Char) : ofDigits (cs ++ ds) = Nat.ofDigitChars 10 ds (ofDigits cs) :=
  Nat.ofDigitChars_append 0

theorem ofDigits_lt {cs : List Char} (h : ∀ c ∈ cs, c.isDigit = true) : ofDigits cs < 10 ^ cs.length := by
  have hfold (n : Nat) : Nat.ofDigitChars 10 cs n < (n + 1) * 10 ^ cs.length := by
    induction cs generalizing n with
    | nil => simp
    | cons c cs ih =>
      have hdigit := Text.isDigit_iff.1 (h c List.mem_cons_self)
      have hzero : '0'.toNat = 48 := rfl
      calc Nat.ofDigitChars 10 (c :: cs) n
        _ = Nat.ofDigitChars 10 cs (10 * n + (c.toNat - '0'.toNat)) := Nat.ofDigitChars_cons
        _ < (10 * n + (c.toNat - '0'.toNat) + 1) * 10 ^ cs.length := ih (fun d hd => h d (.tail _ hd)) _
        _ ≤ ((n + 1) * 10) * 10 ^ cs.length := Nat.mul_le_mul_right _ (by omega)
        _ = (n + 1) * 10 ^ (c :: cs).length := by rw [List.length_cons, Nat.pow_succ', Nat.mul_assoc]
  have hzero := hfold 0
  rwa [Nat.zero_add, Nat.one_mul] at hzero

theorem ofDigits_paddedDigits {places n : Nat} (h : n < 10 ^ places) : ofDigits (paddedDigits places n) = n := by
  induction places generalizing n with
  | zero =>
    rw [Nat.pow_zero, Nat.lt_one_iff] at h
    rw [h]
    rfl
  | succ places ih =>
    have hlead : n / 10 < 10 ^ places := Nat.div_lt_of_lt_mul (by rwa [Nat.mul_comm, ← Nat.pow_succ])
    rw [paddedDigits, ofDigits_append, ih hlead,
      Nat.ofDigitChars_cons_digitChar_of_lt_ten (Nat.mod_lt n (by decide)), Nat.ofDigitChars_nil]
    exact Nat.div_add_mod n 10

/-- Only zeros at the end of a fraction are left out. -/
theorem exists_zeros (places n : Nat) :
    ∃ zeros, paddedDigits places n = fractionDigits places n ++ List.replicate zeros '0' := by
  have hzeros : ∀ c ∈ (paddedDigits places n).rtakeWhile (· == '0'), c = '0' :=
    fun c hc => beq_iff_eq.1 (List.mem_rtakeWhile_imp (p := (· == '0')) hc)
  refine ⟨((paddedDigits places n).rtakeWhile (· == '0')).length, ?_⟩
  rw [← List.eq_replicate_of_mem hzeros]
  exact List.rdropWhile_append_rtakeWhile.symm

/-- The digits of a fraction are digits, and spell it in its last place. -/
private theorem fractionDigits_spec {places n : Nat} (h : n < 10 ^ places) :
    (∀ c ∈ fractionDigits places n, c.isDigit = true) ∧ (fractionDigits places n).length ≤ places ∧
      ofDigits (fractionDigits places n) * 10 ^ places / 10 ^ (fractionDigits places n).length = n := by
  obtain ⟨zeros, hzeros⟩ := exists_zeros places n
  have hlength : (fractionDigits places n).length + zeros = places := by
    have hpadded := length_paddedDigits places n
    rwa [hzeros, List.length_append, List.length_replicate] at hpadded
  have hvalue : 10 ^ zeros * ofDigits (fractionDigits places n) = n := by
    rw [← Nat.ofDigitChars_replicate_zero, ← ofDigits_append, ← hzeros, ofDigits_paddedDigits h]
  refine ⟨fun c hc => ?_, by omega, ?_⟩
  · have hmem : c ∈ paddedDigits places n := by
      rw [hzeros]
      exact List.mem_append_left _ hc
    exact isDigit_of_mem_paddedDigits c hmem
  · have hplaces : 10 ^ places = 10 ^ zeros * 10 ^ (fractionDigits places n).length := by
      rw [← Nat.pow_add, Nat.add_comm, hlength]
    rw [hplaces, ← Nat.mul_assoc, Nat.mul_comm _ (10 ^ zeros), hvalue]
    exact Nat.mul_div_cancel n (Nat.pow_pos (by decide))

/-! ### One amount -/

variable {whole places fraction : Nat} {unit : String}

/-- The units that durations are written with. -/
private theorem unit_spec (hunit : (places, unit) ∈ [(9, "s"), (6, "ms"), (3, "µs"), (0, "ns")]) :
    places ≤ 9 ∧ unitNanos? unit.toList = some (10 ^ places) ∧
      (∀ c ∈ unit.toList, (c.isDigit || c == '.') = false ∧ isBlank c = false) ∧ 's' ∈ unit.toList.getLast? := by
  have hletters {cs : List Char} (h : cs.all (fun c => !(c.isDigit || c == '.') && !isBlank c) = true) :
      ∀ c ∈ cs, (c.isDigit || c == '.') = false ∧ isBlank c = false := by
    intro c hc
    have hletter := List.all_eq_true.1 h c hc
    rwa [Bool.and_eq_true, Bool.not_eq_true', Bool.not_eq_true'] at hletter
  simp only [List.mem_cons, Prod.mk.injEq, List.not_mem_nil, or_false] at hunit
  rcases hunit with ⟨rfl, rfl⟩ | ⟨rfl, rfl⟩ | ⟨rfl, rfl⟩ | ⟨rfl, rfl⟩
  all_goals exact ⟨by decide, by decide, hletters (by decide), by decide⟩

private theorem isNumber_of_mem_written {digits : List Char} (h : ∀ c ∈ digits, c.isDigit = true) :
    ∀ c ∈ written whole digits, (c.isDigit || c == '.') = true := by
  intro c hc
  rw [Bool.or_eq_true, beq_iff_eq]
  unfold written at hc
  rcases List.mem_append.1 hc with hc | hc
  · exact .inl (isDigit_of_mem_toDigits c hc)
  · split at hc
    · nomatch hc
    · rcases List.mem_cons.1 hc with rfl | hc
      · exact .inr rfl
      · exact .inl (h c hc)

/-- An amount is read as all the nanoseconds that it stands for. -/
theorem unitAmount_written (hunit : (places, unit) ∈ [(9, "s"), (6, "ms"), (3, "µs"), (0, "ns")])
    (hfraction : fraction < 10 ^ places) (hlt : whole * 10 ^ places + fraction < amountLimit) (text : String) :
    unitAmount text (written whole (fractionDigits places fraction) ++ unit.toList) =
      .ok (whole * 10 ^ places + fraction, []) := by
  obtain ⟨hplaces, hscale, hletters, -⟩ := unit_spec hunit
  obtain ⟨hdigits, hlength, hvalue⟩ := fractionDigits_spec hfraction
  have hnanos : scaledNanos (written whole (fractionDigits places fraction)) (10 ^ places) =
      some (whole * 10 ^ places + fraction) := by
    rw [scaledNanos_written hdigits (by omega) (Nat.pow_pos (by decide)) (by rwa [hvalue]), hvalue]
  exact unitAmount_append (isNumber_of_mem_written hdigits) hletters hscale hnanos

/-! ### Whole texts -/

private theorem head?_written (whole : Nat) (digits rest : List Char) :
    ∃ c ∈ (written whole digits ++ rest).head?, c.isDigit = true := by
  obtain ⟨c, cs, hdigits⟩ := List.exists_cons_of_ne_nil (Nat.toDigits_ne_nil (n := whole) (b := 10))
  have hc : c ∈ Nat.toDigits 10 whole := by
    rw [hdigits]
    exact List.mem_cons_self
  refine ⟨c, ?_, isDigit_of_mem_toDigits c hc⟩
  rw [written, hdigits]
  rfl

theorem isBlank_of_isDigit {c : Char} (h : c.isDigit = true) : isBlank c = false := by
  rw [Text.isDigit_iff] at h
  unfold isBlank
  simp only [Bool.or_eq_false_iff, Bool.and_eq_false_iff, decide_eq_false_iff_not, beq_eq_false_iff_ne]
  omega

/-- A text that is a single amount is read as this amount. -/
private theorem parse_of_unitAmount {raw : String} {c : Char} {n : Nat} (hc : c ∈ raw.toList.head?)
    (hdigit : c.isDigit = true) (htrim : trim raw.toList = raw.toList) (hn : n < amountLimit)
    (hamount : ∀ text, unitAmount text raw.toList = .ok (n, [])) {d : Duration} (hd : ofNanos? n = some d) :
    parse raw = .ok d := by
  obtain ⟨cs, hcs⟩ := List.head?_eq_some_iff.1 hc
  have hletter : ¬ (c = 'P' ∨ c = 'p') := by
    rintro (rfl | rfl)
    · exact Bool.false_ne_true hdigit
    · exact Bool.false_ne_true hdigit
  have hamounts (text : String) : unitAmounts text 0 (c :: cs) = .ok n := by
    rw [hcs] at hamount
    rw [unitAmounts, List.isEmpty_cons, if_neg Bool.false_ne_true]
    split
    · rename_i e he
      rw [hamount] at he
      cases he
    · rename_i m rest hm
      rw [hamount] at hm
      obtain ⟨rfl, rfl⟩ := Prod.mk.inj (Except.ok.inj hm)
      rw [Nat.zero_add, if_pos hn, unitAmounts]
      rfl
  unfold parse
  dsimp only
  rw [htrim, hcs]
  dsimp only
  rw [if_neg hletter, hamounts]
  dsimp only [Except.bind]
  rw [hd]

/-- Every duration, up to the greatest, is read back from its text, to the nanosecond. -/
theorem parse_render_self (d : Duration) : parse d.render = .ok d := by
  obtain ⟨whole, places, fraction, unit, hunit, hwhole, hfraction, htotal, hrender⟩ := toList_render d
  obtain ⟨hplaces, -, hletters, hlast⟩ := unit_spec hunit
  obtain ⟨c, hc, hdigit⟩ := head?_written whole (fractionDigits places fraction) unit.toList
  have hlimit : whole * 10 ^ places + fraction < amountLimit := by
    have hpow : 10 ^ places ≤ 10 ^ (9 : Nat) := Nat.pow_le_pow_right (by decide) hplaces
    have hmul : (whole + 1) * 10 ^ places ≤ 2 ^ (64 : Nat) * 10 ^ (9 : Nat) := Nat.mul_le_mul hwhole hpow
    have hbound : 2 ^ (64 : Nat) * 10 ^ (9 : Nat) ≤ amountLimit := by decide
    rw [Nat.succ_mul] at hmul
    omega
  have hsolid : IsSolid d.render.toList := by
    rw [hrender]
    refine ⟨⟨c, hc, isBlank_of_isDigit hdigit⟩, ⟨'s', ?_, by decide⟩⟩
    rw [List.getLast?_append]
    exact Option.or_eq_some_iff.2 (.inl hlast)
  refine parse_of_unitAmount (hrender ▸ hc) hdigit (Text.isSolid_iff.1 hsolid).1 hlimit (fun text => ?_) ?_
  · rw [hrender]
    exact unitAmount_written hunit hfraction hlimit text
  · rw [← htotal]
    exact ofNanos?_totalNanos d

end LayeredConfig.Duration
