import LayeredConfig.Proofs.Accessor.Asking
import LayeredConfig.Proofs.Accessor.Conversion
import LayeredConfig.Proofs.Accessor.Direct
import LayeredConfig.Proofs.Accessor.LookupChain
import LayeredConfig.Proofs.Accessor.Nesting

/-!
# Malformed values

A text that ends in an escape with nothing behind it is malformed, and its error names the key that it was read from.
The items of a list are converted one by one, and an item may be malformed for its own converter, such as that of a
list.  That error keeps the empty key that converters give.  So a read names its key whenever a value is malformed,
but for those items (`namesKey_decode_iff`, `malformed_reads`).
-/

namespace LayeredConfig

/-! ### The first failure -/

section

variable {α β ε : Type} {f : α → Except ε β} {l : List α} {a b : α} {e : ε}

/-- The first element that a function fails for, and its error. -/
def FailsFirst (f : α → Except ε β) (l : List α) (a : α) (e : ε) : Prop :=
  ∃ before after, l = before ++ a :: after ∧ (∀ b ∈ before, ∃ y, f b = .ok y) ∧ f a = .error e

private theorem not_failsFirst_nil : ¬ FailsFirst f [] a e := by
  rintro ⟨before, after, h, -⟩
  simp at h

private theorem failsFirst_cons_of_error {e' : ε} (h : f b = .error e') :
    FailsFirst f (b :: l) a e ↔ a = b ∧ e = e' := by
  constructor
  · rintro ⟨_ | ⟨c, before⟩, after, hl, hbefore, ha⟩
    · obtain ⟨rfl, -⟩ := List.cons.inj hl
      rw [h] at ha
      exact ⟨rfl, (Except.error.inj ha).symm⟩
    · obtain ⟨rfl, -⟩ := List.cons.inj hl
      obtain ⟨y, hy⟩ := hbefore b List.mem_cons_self
      rw [h] at hy
      cases hy
  · rintro ⟨rfl, rfl⟩
    exact ⟨[], l, rfl, by simp, h⟩

private theorem failsFirst_cons_of_ok {y : β} (h : f b = .ok y) : FailsFirst f (b :: l) a e ↔ FailsFirst f l a e := by
  constructor
  · rintro ⟨_ | ⟨c, before⟩, after, hl, hbefore, ha⟩
    · obtain ⟨rfl, -⟩ := List.cons.inj hl
      rw [h] at ha
      cases ha
    · obtain ⟨-, hl⟩ := List.cons.inj hl
      exact ⟨before, after, hl, fun c hc => hbefore c (List.mem_cons_of_mem _ hc), ha⟩
  · rintro ⟨before, after, rfl, hbefore, ha⟩
    exact ⟨b :: before, after, rfl, List.forall_mem_cons.2 ⟨⟨y, h⟩, hbefore⟩, ha⟩

private theorem mapM_eq_error_iff : l.mapM f = .error e ↔ ∃ a, FailsFirst f l a e := by
  induction l with
  | nil =>
    refine ⟨fun h => (by cases h), fun ⟨a, ha⟩ => (not_failsFirst_nil ha).elim⟩
  | cons b l ih =>
    rw [List.mapM_cons]
    cases hb : f b with
    | error e' =>
      simp only [failsFirst_cons_of_error hb, exists_eq_left]
      exact ⟨fun h => (Except.error.inj h).symm, fun h => congrArg Except.error h.symm⟩
    | ok y =>
      simp only [failsFirst_cons_of_ok hb, ← ih]
      cases l.mapM f with
      | error e' => exact Iff.rfl
      | ok ys => exact ⟨fun h => (by cases h), fun h => (by cases h)⟩

end

private theorem Shape.distinct_eq_error_iff {α : Type} {same : α → α → Bool} {convert : String → Except ConfigError α}
    {kept : List α} {tokens : List String} {e : ConfigError} :
    distinct same convert kept tokens = .error e ↔ ∃ token, FailsFirst convert tokens token e := by
  induction tokens generalizing kept with
  | nil => exact ⟨fun h => (by cases h), fun ⟨a, ha⟩ => (not_failsFirst_nil ha).elim⟩
  | cons b tokens ih =>
    rw [distinct]
    cases hb : convert b with
    | error e' =>
      simp only [failsFirst_cons_of_error hb, exists_eq_left]
      exact ⟨fun h => (Except.error.inj h).symm, fun h => congrArg Except.error h.symm⟩
    | ok y =>
      simp only [failsFirst_cons_of_ok hb]
      exact ih

/-! ### Converters -/

/-- The conversion refuses a text because of the escape at its end, and names no key. -/
def Dangles (convert : String → Except ConfigError Value) (raw : String) : Prop :=
  convert raw = .error (.malformedInput "" raw Refusal.danglingEscape.message)

/-- This is the only way in which a converter finds a text malformed. -/
private theorem Converter.convert_eq_malformed_iff {c : Converter} {names : TypeNames} {wanted : ValueType}
    {raw named value reason : String} :
    c.convert names wanted raw = .error (.malformedInput named value reason) ↔
      Dangles (c.convert names wanted) raw ∧
        named = "" ∧ value = raw ∧ reason = Refusal.danglingEscape.message := by
  constructor
  · intro h
    have hsettled : Dangles (c.convert names wanted) raw ∧ ConfigError.malformedInput named value reason =
        .malformedInput "" raw Refusal.danglingEscape.message := by
      rw [Dangles, h]
      rw [convert] at h
      cases hrun : c.run names raw with
      | error refusal =>
        rw [hrun, settle] at h
        cases refusal with
        | danglingEscape => exact ⟨h.symm, (Except.error.inj h).symm⟩
        | because reason => cases h
      | ok v =>
        rw [hrun, settle] at h
        split at h
        · cases h
        · cases h
    obtain ⟨hdangles, heq⟩ := hsettled
    exact ⟨hdangles, by simpa using heq⟩
  · rintro ⟨hdangles, rfl, rfl, rfl⟩
    exact hdangles

/-- Whoever knows the key of the text puts it in. -/
private theorem Converter.mapError_convert_eq_malformed_iff {c : Converter} {names : TypeNames} {wanted : ValueType}
    {key raw named value reason : String} :
    (c.convert names wanted raw).mapError (ConfigError.forKey key) = .error (.malformedInput named value reason) ↔
      Dangles (c.convert names wanted) raw ∧
        named = key ∧ value = raw ∧ reason = Refusal.danglingEscape.message := by
  rw [Dangles]
  cases h : c.convert names wanted raw with
  | ok v => exact ⟨fun h => (by cases h), fun h => (by cases h.1)⟩
  | error e =>
    cases e with
    | malformedInput k text why =>
      obtain ⟨-, rfl, rfl, rfl⟩ := convert_eq_malformed_iff.1 h
      show Except.error (ConfigError.forKey key (.malformedInput "" _ _)) = _ ↔ _
      simp only [ConfigError.forKey, if_true, Except.error.injEq, ConfigError.malformedInput.injEq, true_and]
      exact and_congr eq_comm (and_congr eq_comm eq_comm)
    | _ => exact ⟨fun h => (by cases h), fun h => (by cases h.1)⟩

/-! ### Shapes -/

namespace Shape

variable {shape : Shape} {convert : String → Except ConfigError Value} {key raw named value reason : String}
  {e : ConfigError}

/-- The items of a list text are not made if the text cannot be split, or at the first one that is not converted. -/
private theorem tokens_bind_eq_error_iff {α β : Type} {convert : String → Except ConfigError α}
    {values : List String → Except ConfigError β}
    (hvalues : ∀ tokens, values tokens = .error e ↔ ∃ token, FailsFirst convert tokens token e) :
    tokens key raw >>= values = .error e ↔
      ListText.split raw = none ∧ e = .malformedInput key raw Refusal.danglingEscape.message ∨
        ∃ tokens token, ListText.split raw = some tokens ∧ FailsFirst convert tokens token e := by
  rw [tokens]
  cases ListText.split raw with
  | none =>
    simp only [true_and, reduceCtorEq, false_and, exists_false, or_false]
    exact ⟨fun h => (Except.error.inj h).symm, fun h => congrArg Except.error h.symm⟩
  | some tokens =>
    simp only [reduceCtorEq, false_and, false_or, Option.some.injEq, exists_and_left, exists_eq_left', ← hvalues]
    exact Iff.rfl

private theorem items_eq_error_iff {α : Type} {convert : String → Except ConfigError α} :
    items convert key raw = .error e ↔
      ListText.split raw = none ∧ e = .malformedInput key raw Refusal.danglingEscape.message ∨
        ∃ tokens token, ListText.split raw = some tokens ∧ FailsFirst convert tokens token e :=
  tokens_bind_eq_error_iff fun _ => mapM_eq_error_iff

/-- What is left out of a set has been converted before, so a set fails where the list does. -/
theorem distinctItems_eq_error_iff {α : Type} {same : α → α → Bool} {convert : String → Except ConfigError α} :
    distinctItems same convert key raw = .error e ↔ items convert key raw = .error e :=
  (tokens_bind_eq_error_iff fun _ => distinct_eq_error_iff).trans items_eq_error_iff.symm

/-- A list or a set is not made if its text cannot be split, or at the first item that is not converted. -/
private theorem decode_eq_error_iff (hshape : shape ≠ .scalar) :
    shape.decode key raw convert = .error e ↔
      ListText.split raw = none ∧ e = .malformedInput key raw Refusal.danglingEscape.message ∨
        ∃ tokens token, ListText.split raw = some tokens ∧ FailsFirst convert tokens token e := by
  have hlist (values : Except ConfigError (List Value)) :
      (do return .list (← values) : Except ConfigError Value) = .error e ↔ values = .error e := by
    cases values with
    | error e' => exact Iff.of_eq (by rw [Except.error.injEq]; exact Except.error.injEq _ _)
    | ok values => exact ⟨fun h => (by cases h), fun h => (by cases h)⟩
  cases shape with
  | scalar => exact absurd rfl hshape
  | list => exact (hlist _).trans items_eq_error_iff
  | set => exact (hlist _).trans (distinctItems_eq_error_iff.trans items_eq_error_iff)

/-- The text as a whole is refused because of the escape at its end. -/
def RefusesText (shape : Shape) (convert : String → Except ConfigError Value) (raw : String) : Prop :=
  match shape with
  | scalar => Dangles convert raw
  | list | set => ListText.split raw = none

/-- The text is split, but converting its items stops at one that is refused because of the escape at its end. -/
def RefusesItem (shape : Shape) (convert : String → Except ConfigError Value) (raw token : String) : Prop :=
  shape ≠ .scalar ∧ ∃ tokens, ListText.split raw = some tokens ∧
    FailsFirst convert tokens token (.malformedInput "" token Refusal.danglingEscape.message)

/-- A text that is refused as a whole is named with its key, an item with no key. -/
private theorem decode_eq_malformed_iff {c : Converter} {names : TypeNames} {wanted : ValueType} :
    shape.decode key raw (c.convert names wanted) = .error (.malformedInput named value reason) ↔
      reason = Refusal.danglingEscape.message ∧
        (shape.RefusesText (c.convert names wanted) raw ∧ named = key ∧ value = raw ∨
          shape.RefusesItem (c.convert names wanted) raw value ∧ named = "") := by
  by_cases hshape : shape = .scalar
  · subst hshape
    rw [decode, Converter.mapError_convert_eq_malformed_iff]
    exact ⟨fun ⟨h, hnamed, hvalue, hreason⟩ => ⟨hreason, .inl ⟨h, hnamed, hvalue⟩⟩, fun ⟨hreason, h⟩ =>
      h.elim (fun ⟨h, hnamed, hvalue⟩ => ⟨h, hnamed, hvalue, hreason⟩) fun h => absurd rfl h.1.1⟩
  · have hsplit : shape.RefusesText (c.convert names wanted) raw ↔ ListText.split raw = none := by
      cases shape with
      | scalar => exact absurd rfl hshape
      | list | set => exact Iff.rfl
    rw [decode_eq_error_iff hshape, hsplit]
    constructor
    · rintro (⟨hnone, he⟩ | ⟨tokens, token, htokens, hfirst⟩)
      · obtain ⟨rfl, rfl, rfl⟩ := ConfigError.malformedInput.inj he
        exact ⟨rfl, .inl ⟨hnone, rfl, rfl⟩⟩
      · obtain ⟨before, after, -, -, htoken⟩ := id hfirst
        obtain ⟨-, rfl, rfl, rfl⟩ := Converter.convert_eq_malformed_iff.1 htoken
        exact ⟨rfl, .inr ⟨⟨hshape, tokens, htokens, hfirst⟩, rfl⟩⟩
    · rintro ⟨rfl, ⟨hnone, rfl, rfl⟩ | ⟨⟨-, tokens, htokens, hfirst⟩, rfl⟩⟩
      · exact .inl ⟨hnone, rfl⟩
      · exact .inr ⟨tokens, value, htokens, hfirst⟩

end Shape

/-! ### Reads -/

/-- If the outcome is that a value is malformed, then its error names the key. -/
def NamesKey {α : Type} (key : String) (outcome : Except ConfigError α) : Prop :=
  ∀ named value reason, outcome = .error (.malformedInput named value reason) → named = key

section

variable {α β : Type} {key : String}

private theorem namesKey_ok (a : α) : NamesKey key (.ok a) := fun _ _ _ h => by cases h

private theorem namesKey_error_iff {e : ConfigError} :
    NamesKey key (.error e : Except ConfigError α) ↔
      ∀ named value reason, e = .malformedInput named value reason → named = key := by
  simp only [NamesKey, Except.error.injEq]

private theorem namesKey_map_iff {p : Except ConfigError α} {f : α → β} : NamesKey key (p.map f) ↔ NamesKey key p := by
  cases p with
  | ok a => exact iff_of_true (namesKey_ok _) (namesKey_ok _)
  | error e => exact namesKey_error_iff.trans namesKey_error_iff.symm

private theorem namesKey_require_iff {k : String} {p : Except ConfigError (Option α)} :
    NamesKey key (View.require k p) ↔ NamesKey key p := by
  cases p with
  | ok a =>
    refine iff_of_true ?_ (namesKey_ok _)
    cases a with
    | none => exact namesKey_error_iff.2 fun _ _ _ h => by cases h
    | some a => exact namesKey_ok a
  | error e => exact namesKey_error_iff.trans namesKey_error_iff.symm

end

/-- An engine names the key of every value that it finds malformed. -/
private theorem View.namesKey_optionalValue (v : View) (r : Registry) (t : ValueType) (key : String) :
    NamesKey key (v.optionalValue r t key).1 := by
  unfold optionalValue Registry.convert
  cases v.present? key with
  | none => exact namesKey_ok _
  | some raw =>
    dsimp only
    cases hresolve : r.resolve t with
    | mk outcome r' =>
      cases outcome with
      | error e =>
        obtain ⟨name, rfl⟩ := Registry.error_of_resolve hresolve
        exact fun _ _ _ h => by cases h
      | ok c =>
        have hnames : NamesKey key ((c.convert r'.names t raw).mapError (ConfigError.forKey key)) :=
          fun _ _ _ h => (Converter.mapError_convert_eq_malformed_iff.1 h).2.1
        show NamesKey key (((c.convert r'.names t raw).map some).mapError (ConfigError.forKey key))
        cases hc : c.convert r'.names t raw with
        | ok x => exact namesKey_ok _
        | error e =>
          rw [hc] at hnames
          exact namesKey_error_iff.2 (namesKey_error_iff.1 hnames)

private theorem View.namesKey_value (v : View) (r : Registry) (t : ValueType) (key : String) :
    NamesKey key (v.value r t key).1 :=
  namesKey_require_iff.2 (v.namesKey_optionalValue r t key)

namespace Accessor

variable {v : View} {r : Registry} {s : Settings} {a : Accessor} {raw : String}

/-- The converter refuses an item of the text because of the escape at its end. -/
def RefusesItem (s : Settings) (r : Registry) (raw token : String) : Prop :=
  ∃ convert, s.conversion? r = some convert ∧ s.shape.RefusesItem convert raw token

/-- The error of a refused item names no key. -/
private theorem RefusesItem.decode_eq {token : String} (h : RefusesItem s r raw token) :
    (decode s r raw).1 = .error (.malformedInput "" token Refusal.danglingEscape.message) := by
  obtain ⟨convert, hconversion, hitem⟩ := h
  obtain ⟨c, names, rfl⟩ := exists_converter_of_conversion? hconversion
  rw [decode_of_conversion? hconversion]
  exact Shape.decode_eq_malformed_iff.2 ⟨rfl, .inr ⟨hitem, rfl⟩⟩

theorem namesKey_decode_iff :
    NamesKey s.key (decode s r raw).1 ↔ s.key = "" ∨ ∀ token, ¬ RefusesItem s r raw token := by
  cases hconversion : s.conversion? r with
  | none =>
    have hitem (token : String) : ¬ RefusesItem s r raw token := by
      rintro ⟨convert, hconvert, -⟩
      rw [hconversion] at hconvert
      cases hconvert
    rw [decode_of_no_conversion? hconversion]
    exact ⟨fun _ => .inr hitem, fun _ _ _ _ h => by cases h⟩
  | some convert =>
    obtain ⟨c, names, rfl⟩ := exists_converter_of_conversion? hconversion
    rw [decode_of_conversion? hconversion]
    constructor
    · intro h
      by_cases hkey : s.key = ""
      · exact .inl hkey
      · refine .inr fun token hitem => hkey ?_
        have hdecode := hitem.decode_eq
        rw [decode_of_conversion? hconversion] at hdecode
        exact (h "" token _ hdecode).symm
    · intro h named value reason he
      rcases (Shape.decode_eq_malformed_iff.1 he).2 with ⟨-, hnamed, -⟩ | ⟨hitem, rfl⟩
      · exact hnamed
      · exact h.elim Eq.symm fun hno => absurd ⟨_, hconversion, hitem⟩ (hno value)

/-- A default that is read from a text names its key like a value that is configured. -/
private theorem namesKey_withTextDefault_iff :
    NamesKey a.settings.key (a.withTextDefault v r raw).outcome ↔
      raw = "" ∨ a.settings.key = "" ∨ ∀ token, ¬ RefusesItem a.settings r (process v a.settings raw).text token := by
  rw [← namesKey_decode_iff]
  unfold withTextDefault
  split
  · rename_i hraw
    exact ⟨fun _ => .inl (by simpa using hraw), fun _ _ _ _ h => by cases h⟩
  · rename_i hraw
    have hraw : raw ≠ "" := by simpa using hraw
    rw [or_iff_right hraw]
    dsimp only
    generalize decode a.settings r (process v a.settings raw).text = p
    obtain ⟨e | value, r'⟩ := p
    · exact namesKey_error_iff.trans namesKey_error_iff.symm
    · exact iff_of_true (namesKey_ok _) (namesKey_ok _)

private theorem namesKey_result_iff {text : Option String} :
    NamesKey s.key (result s r text).1 ↔
      ∀ raw, text = some raw → s.key = "" ∨ ∀ token, ¬ RefusesItem s r raw token := by
  cases text with
  | none => exact ⟨fun _ _ h => (by cases h), fun _ => namesKey_ok _⟩
  | some raw =>
    rw [result, namesKey_map_iff, namesKey_decode_iff]
    exact ⟨fun h _ hraw => Option.some.inj hraw ▸ h, fun h => h raw rfl⟩

end Accessor

/-! ### Failing suffixes -/

/-- A read of `b` fails with an error although its suffixes do not. -/
def Accessor.FailsItself (v : View) (r : Registry) (b : Accessor) (e : ConfigError) : Prop :=
  ∃ texts, (Accessor.presentSuffixes v r b.suffixes).outcome = .ok texts ∧ (b.optionalValue v r).outcome = .error e

mutual

/-- Whatever error a read gives, one of the accessors inside fails with it itself. -/
private theorem Accessor.exists_failsItself {v : View} {r : Registry} {a : Accessor} {e : ConfigError}
    (h : (a.optionalValue v r).outcome = .error e) : ∃ b ∈ a.all, ∃ r', r.Asked r' ∧ b.FailsItself v r' e := by
  obtain ⟨s, suffixes, m⟩ := a
  cases hsuffixes : (Accessor.presentSuffixes v r suffixes).outcome with
  | ok texts => exact ⟨_, List.mem_cons_self, r, .refl, texts, hsuffixes, h⟩
  | error e' =>
    obtain ⟨b, hb, r', hr', hfails⟩ := Suffixes.exists_failsItself hsuffixes
    rw [Accessor.optionalValue] at h
    split at h
    · cases h
    · dsimp only at h
      rw [hsuffixes] at h
      obtain rfl := Except.error.inj h
      exact ⟨b, List.mem_cons_of_mem _ hb, r', hr', hfails⟩

private theorem Suffixes.exists_failsItself {v : View} {r : Registry} {suffixes : Suffixes} {e : ConfigError}
    (h : (Accessor.presentSuffixes v r suffixes).outcome = .error e) :
    ∃ b ∈ suffixes.all, ∃ r', r.Asked r' ∧ b.FailsItself v r' e := by
  have hmap {f : List String → List String} {p : Except ConfigError (List String)} (h : p.map f = .error e) :
      p = .error e := by
    cases p with
    | ok a => cases h
    | error e' => exact congrArg Except.error (Except.error.inj h)
  cases suffixes with
  | nil => cases h
  | literal text rest =>
    have h : (Accessor.presentSuffixes v r rest).outcome.map (Accessor.consPresent (some text)) = .error e := h
    obtain ⟨b, hb, hfails⟩ := Suffixes.exists_failsItself (hmap h)
    exact ⟨b, hb, hfails⟩
  | resolved source rest =>
    rw [Accessor.presentSuffixes] at h
    dsimp only at h
    split at h
    · rename_i e' he'
      obtain rfl := Except.error.inj h
      obtain ⟨b, hb, hfails⟩ := Accessor.exists_failsItself he'
      exact ⟨b, List.mem_append_left _ hb, hfails⟩
    · obtain ⟨b, hb, r', hr', hfails⟩ := Suffixes.exists_failsItself (hmap h)
      exact ⟨b, List.mem_append_right _ hb, r', (Accessor.asked_optionalValue v r source).trans hr', hfails⟩

end

namespace Accessor

/-- Engines name the keys of malformed values.  Accessors do so too, in reads and in defaults from texts, unless the
text that is converted has an item that the converter refuses because of the escape at its end: that error names no
key.  A read fails with the error of a suffix only if the suffix comes from an accessor that fails in this way
itself. -/
theorem malformed_reads (v : View) (r : Registry) (a : Accessor) :
    (∀ t key, NamesKey key (v.optionalValue r t key).1 ∧ NamesKey key (v.value r t key).1) ∧
    (∀ raw, NamesKey a.settings.key (a.withTextDefault v r raw).outcome ↔
      raw = "" ∨ a.settings.key = "" ∨ ∀ token, ¬ RefusesItem a.settings r (process v a.settings raw).text token) ∧
    (∀ raw token, RefusesItem a.settings r raw token →
      (decode a.settings r raw).1 = .error (.malformedInput "" token Refusal.danglingEscape.message)) ∧
    (∀ texts, (presentSuffixes v r a.suffixes).outcome = .ok texts →
      NamesKey a.settings.key (a.rawValue v r).outcome ∧
      (NamesKey a.settings.key (a.value v r).1 ↔ NamesKey a.settings.key (a.optionalValue v r).outcome) ∧
      (NamesKey a.settings.key (a.optionalValue v r).outcome ↔
        (kept? v a.settings a.memory).isSome ∨ ∀ raw, (lookup v a.settings texts).raw = some raw →
          a.settings.key = "" ∨
            ∀ token, ¬ RefusesItem a.settings (presentSuffixes v r a.suffixes).registry raw token)) ∧
    (∀ e, (presentSuffixes v r a.suffixes).outcome = .error e →
      (a.rawValue v r).outcome = .error e ∧
      (kept? v a.settings a.memory = none → (a.optionalValue v r).outcome = .error e) ∧
      ∃ b ∈ a.suffixes.all, ∃ r', r.Asked r' ∧ b.FailsItself v r' e) := by
  refine ⟨fun t key => ⟨v.namesKey_optionalValue r t key, v.namesKey_value r t key⟩,
    fun raw => namesKey_withTextDefault_iff, fun raw token h => h.decode_eq, fun texts h => ?_, fun e h => ?_⟩
  · have hanswers := answers_of_presentSuffixes h
    refine ⟨hanswers.raw ▸ namesKey_ok _, namesKey_require_iff, ?_⟩
    cases hkept : kept? v a.settings a.memory with
    | none =>
      rw [hanswers.value hkept, namesKey_result_iff, Option.isSome_none, eq_false Bool.false_ne_true, false_or]
    | some value =>
      obtain ⟨s, suffixes, m⟩ := a
      have hkept : kept? v s m = some value := hkept
      rw [optionalValue, hkept]
      exact iff_of_true (namesKey_ok _) (.inl rfl)
  · obtain ⟨hraw, hread⟩ := fails_of_presentSuffixes h
    exact ⟨hraw, hread, Suffixes.exists_failsItself h⟩

/-- An accessor of `hosts` that leaves references alone. -/
def hosts (t : ValueType) (shape : Shape) : Accessor := .mk (.direct "hosts" t shape) .nil .fresh

/-- A list that itself ends in an escape is named with its key. -/
theorem malformed_reads_hosts :
    let v : View := ⟨fun _ => some "a\\", 0, 0⟩
    NamesKey "hosts" ((hosts .text .list).optionalValue v (.standard [])).outcome ∧
      ((hosts .text .list).optionalValue v (.standard [])).outcome =
        .error (.malformedInput "hosts" "a\\" Refusal.danglingEscape.message) := by
  refine ⟨((malformed_reads _ (.standard []) (hosts .text .list)).2.2.2.1 [] rfl).2.2.2 (.inr fun raw hraw => ?_), rfl⟩
  obtain rfl := Option.some.inj hraw
  refine .inr fun token ⟨_, _, _, tokens, htokens, _⟩ => ?_
  cases htokens

/-- A list of lists that has such an item is not, neither in a read nor in a default. -/
theorem not_namesKey_hosts :
    let v : View := ⟨fun _ => some "a\\\\", 0, 0⟩
    ¬ NamesKey "hosts" ((hosts (.list .text) .list).optionalValue v (.standard [])).outcome ∧
      ¬ NamesKey "hosts" ((hosts (.list .text) .set).withTextDefault v (.standard []) "a\\\\").outcome :=
  have hkey : ¬ "" = "hosts" := by decide
  ⟨fun h => hkey (h "" "a\\" _ rfl), fun h => hkey (h "" "a\\" _ rfl)⟩

end Accessor

end LayeredConfig
