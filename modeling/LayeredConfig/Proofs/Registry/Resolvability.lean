import LayeredConfig.Proofs.Registry.Current
import Mathlib.Data.List.Induction

/-!
# Which types can be resolved

A type is resolved by its entry, by its own ways to be made from a text, or as a list of a type that is.  What was
looked up before does not matter, although a converter that is found is kept for good: no more is kept than what could
be found again (`Justified`).  So the entries alone, which grow with each registration, tell the types that have a
converter (`resolvable_after`).
-/

namespace LayeredConfig

/-- Whether a type can be made from a text without a registered converter. -/
def CustomType.HasWay (t : CustomType) : Prop := t.own.isSome ∨ t.construct.isSome ∨ t.parse.isSome

private theorem CustomType.isSome_converter?_iff {t : CustomType} : t.converter?.isSome ↔ t.HasWay := by
  obtain ⟨name, own, construct, parse⟩ := t
  unfold converter? HasWay
  cases own with
  | some c => simp
  | none =>
    cases construct with
    | some f => simp
    | none =>
      cases parse with
      | some p => simp
      | none => simp

namespace Registry

/-- Whether a history has a call of some kind, behind the calls before it. -/
def Happened (P : List Call → Call → Prop) (history : List Call) : Prop :=
  ∃ before call after, history = before ++ call :: after ∧ P before call

/-- Whether a type has an entry after a history: a built-in converter, or one whose registration was accepted. -/
def HasEntry (customTypes : List CustomType) (builtins : Bool) (history : List Call) (t : ValueType) : Prop :=
  (builtin? builtins t).isSome ∨
    Happened (fun before call => ∃ o, call = .register o ∧ o.type = t ∧
      (call.run ((initial customTypes builtins).after before)).1 = .registered (.ok ())) history

/-- The types that can be resolved in an application when some of them have entries. -/
inductive Resolvable (customTypes : List CustomType) (entered : ValueType → Prop) : ValueType → Prop
  | entry {t : ValueType} (h : entered t) : Resolvable customTypes entered t
  | way {name : String} {t : CustomType} (ht : customTypes.find? (fun t => t.fullName == name) = some t)
      (h : t.HasWay) : Resolvable customTypes entered (.custom name)
  | list {element : ValueType} (h : Resolvable customTypes entered element) :
      Resolvable customTypes entered (.list element)

/-- Whether a call registers a converter. -/
def Call.registers : Call → Bool
  | register _ => true
  | _ => false

section

variable {customTypes : List CustomType} {builtins : Bool} {history : List Call} {call : Call} {r : Registry}
  {t u : ValueType}

/-! ### Entries -/

/-- A call of a longer history is one of the shorter history, or the last one. -/
theorem happened_concat {P : List Call → Call → Prop} :
    Happened P (history ++ [call]) ↔ Happened P history ∨ P history call := by
  constructor
  · rintro ⟨before, c, after, heq, h⟩
    rcases List.eq_nil_or_concat after with rfl | ⟨after, last, rfl⟩
    · obtain ⟨rfl, hlast⟩ := List.append_inj' heq rfl
      obtain rfl := List.singleton_inj.1 hlast
      exact .inr h
    · have hconcat : history ++ [call] = (before ++ c :: after) ++ [last] := by simpa using heq
      exact .inl ⟨before, c, after, (List.append_inj' hconcat rfl).1, h⟩
  · rintro (⟨before, c, after, rfl, h⟩ | h)
    · exact ⟨before, c, after ++ [call], by simp, h⟩
    · exact ⟨history, call, [], rfl, h⟩

theorem HasEntry.concat (h : HasEntry customTypes builtins history t) (call : Call) :
    HasEntry customTypes builtins (history ++ [call]) t :=
  h.imp_right fun h => happened_concat.2 (.inl h)

private theorem mem_offers {o : Offer} : o ∈ offers t history ↔ .register o ∈ history ∧ o.type = t := by
  rw [offers, List.mem_filterMap]
  constructor
  · rintro ⟨call, hcall, ho⟩
    cases call with
    | register q =>
      obtain ⟨ht, hq⟩ := Option.ite_none_right_eq_some.1 ho
      obtain rfl := Option.some.inj hq
      exact ⟨hcall, ht⟩
    | convert u raw => cases ho
    | has u => cases ho
  · rintro ⟨ho, ht⟩
    exact ⟨.register o, ho, if_pos ht⟩

/-- Some registration is active for a type with a built-in converter, or with any that was offered. -/
private theorem isSome_expected?_iff :
    (expected? builtins t history).isSome ↔ (builtin? builtins t).isSome ∨ offers t history ≠ [] := by
  unfold expected? contenders
  cases builtin? builtins t with
  | some b => simp
  | none =>
    have hall : (offers t history).filter (fun _ => true) = offers t history := List.filter_eq_self.2 fun _ _ => rfl
    simp only [Option.isNone_none, Bool.true_or, hall, Option.or_none, Option.isSome_map, Option.isSome_none,
      Bool.false_eq_true, false_or]
    exact List.isSome_maxOn?_iff

/-- The first converter that is registered for a type is accepted. -/
private theorem accepted_of_offers_eq_nil {o : Offer} (h : offers o.type history = []) :
    ((Call.register o).run ((initial customTypes builtins).after history)).1 = .registered (.ok ()) := by
  have hnone : contenders builtins o.type history = [] := by rw [contenders, h, List.filter_nil]
  rw [(tracks_after customTypes builtins history).run_register o, hnone, List.map_nil, List.max?_nil,
    if_neg (Option.some_ne_none _).symm]

/-- A type has an entry if it has a built-in converter, or if one was ever registered for it. -/
theorem hasEntry_iff :
    HasEntry customTypes builtins history t ↔ (builtin? builtins t).isSome ∨ offers t history ≠ [] := by
  constructor
  · rintro (h | ⟨before, call, after, rfl, o, rfl, ht, -⟩)
    · exact .inl h
    · exact .inr (List.ne_nil_of_mem (mem_offers.2 ⟨by simp, ht⟩))
  · rintro (h | h)
    · exact .inl h
    · induction history using List.reverseRecOn with
      | nil => exact absurd rfl h
      | append_singleton history call ih =>
        by_cases hearlier : offers t history = []
        · obtain ⟨o, ho⟩ := List.exists_mem_of_ne_nil _ h
          obtain ⟨hmem, rfl⟩ := mem_offers.1 ho
          rcases List.mem_append.1 hmem with ho | ho
          · exact absurd (mem_offers.2 ⟨ho, rfl⟩) (hearlier ▸ List.not_mem_nil)
          · obtain rfl := List.mem_singleton.1 ho
            exact .inr (happened_concat.2 (.inr ⟨o, rfl, rfl, accepted_of_offers_eq_nil hearlier⟩))
        · exact (ih hearlier).concat call

theorem isSome_active?_after (customTypes : List CustomType) (builtins : Bool) (history : List Call) (t : ValueType) :
    (((initial customTypes builtins).after history).active? t).isSome ↔ HasEntry customTypes builtins history t := by
  rw [tracks_after customTypes builtins history t, isSome_expected?_iff, hasEntry_iff]

/-! ### Resolving -/

private theorem Resolvable.mono {entered entered' : ValueType → Prop} (h : ∀ t, entered t → entered' t)
    (ht : Resolvable customTypes entered t) : Resolvable customTypes entered' t := by
  induction ht with
  | entry ht => exact .entry (h _ ht)
  | way ht hway => exact .way ht hway
  | list _ ih => exact .list ih

/-- Where a type gets a converter from: the registry, its elements or its own ways. -/
private theorem isSome_current?_cases :
    (r.current? t).isSome ↔ r.Settled t ∨ (∃ element, t = .list element ∧ (r.current? element).isSome) ∨
      ∃ name c, t = .custom name ∧ r.customTypes.find? (fun c => c.fullName == name) = some c ∧ c.HasWay := by
  rw [current?_eq, Option.isSome_or, Option.isSome_or, Option.isSome_map, Bool.or_eq_true, Bool.or_eq_true]
  refine or_congr Iff.rfl ?_
  cases t with
  | list element => simp
  | custom name =>
    have hcustom : (r.customConverter? name).isSome ↔
        ∃ c, r.customTypes.find? (fun c => c.fullName == name) = some c ∧ c.HasWay := by
      rw [customConverter?]
      cases r.customTypes.find? fun c => c.fullName == name with
      | none => simp
      | some c => simp [CustomType.isSome_converter?_iff]
    simpa using hcustom
  | _ => simp

/-- When no more was kept than can be found again, the types that have a converter are those that can be resolved. -/
private theorem isSome_current?_iff {entered : ValueType → Prop} (hactive : ∀ t, (r.active? t).isSome ↔ entered t)
    (hkept : ∀ t, (r.discovered.lookup t).isSome → Resolvable r.customTypes entered t) :
    (r.current? t).isSome ↔ Resolvable r.customTypes entered t := by
  have hfound {t : ValueType} (h : (r.current? t).isSome)
      (hlist : ∀ element, t = .list element → (r.current? element).isSome →
        Resolvable r.customTypes entered element) : Resolvable r.customTypes entered t := by
    rcases isSome_current?_cases.1 h with (h | h) | ⟨element, rfl, helement⟩ | ⟨name, c, rfl, hc, hway⟩
    · exact .entry ((hactive t).1 h)
    · exact hkept t h
    · exact .list (hlist element rfl helement)
    · exact .way hc hway
  constructor
  · intro h
    induction t with
    | list element ih =>
      refine hfound h fun element' heq helement => ?_
      obtain rfl := ValueType.list.inj heq
      exact ih helement
    | _ => exact hfound h nofun
  · intro h
    induction h with
    | entry h => exact isSome_current?_cases.2 (.inl (.inl ((hactive _).2 h)))
    | way hc hway => exact isSome_current?_cases.2 (.inr (.inr ⟨_, _, rfl, hc, hway⟩))
    | list _ ih => exact isSome_current?_cases.2 (.inr (.inl ⟨_, rfl, ih⟩))

/-! ### Runs -/

private theorem customTypes_after (customTypes : List CustomType) (builtins : Bool) (history : List Call) :
    ((initial customTypes builtins).after history).customTypes = customTypes :=
  (covers_after _ history).customTypes.trans (customTypes_initial customTypes builtins)

/-- No converter is kept for a type that could not be resolved from the entries alone. -/
def Justified (customTypes : List CustomType) (builtins : Bool) (history : List Call) (r : Registry) : Prop :=
  ∀ t, (r.discovered.lookup t).isSome → Resolvable customTypes (HasEntry customTypes builtins history) t

theorem Justified.isSome_current?_iff
    (h : Justified customTypes builtins history ((initial customTypes builtins).after history)) (t : ValueType) :
    (((initial customTypes builtins).after history).current? t).isSome ↔
      Resolvable customTypes (HasEntry customTypes builtins history) t := by
  have hcustom := customTypes_after customTypes builtins history
  have hiff := Registry.isSome_current?_iff (t := t) (isSome_active?_after customTypes builtins history)
    fun u hu => hcustom.symm ▸ h u hu
  rwa [hcustom] at hiff

theorem justified_after (customTypes : List CustomType) (builtins : Bool) (history : List Call) :
    Justified customTypes builtins history ((initial customTypes builtins).after history) := by
  induction history using List.reverseRecOn with
  | nil =>
    intro t ht
    rw [after, List.foldl_nil, discovered_initial] at ht
    nomatch ht
  | append_singleton history call ih =>
    intro t ht
    rw [after_concat] at ht
    have hearlier : Resolvable customTypes (HasEntry customTypes builtins history) t := by
      rcases Call.run_cases ((initial customTypes builtins).after history) call with h | ⟨o, h⟩ | ⟨u, h⟩
      · exact ih t (h ▸ ht)
      · rw [h] at ht
        exact ih t ht
      · rw [h] at ht
        rcases discovered_resolve ((initial customTypes builtins).after history) u t with h | ⟨-, -, hsome, -⟩
        · exact ih t (h ▸ ht)
        · exact (ih.isSome_current?_iff t).1 hsome
    exact hearlier.mono fun u hu => hu.concat call

/-! ### Answers -/

private theorem run_has (r : Registry) (t : ValueType) : ((Call.has t).run r).1 = .has (r.current? t).isSome := by
  show Reply.has (r.hasConverter t).1 = _
  unfold hasConverter current?
  generalize r.resolve t = p
  obtain ⟨_ | c, r'⟩ := p
  · rfl
  · rfl

/-- A converter never complains that there is none. -/
private theorem convert_ne_noConverter (names : TypeNames) (c : Converter) (wanted : ValueType) (raw name : String) :
    c.convert names wanted raw ≠ .error (.noConverter name) := by
  unfold Converter.convert Converter.settle
  cases c.run names raw with
  | error refusal =>
    cases refusal with
    | danglingEscape => nofun
    | because reason => nofun
  | ok v =>
    dsimp only
    split
    · nofun
    · nofun

private theorem run_convert_ne_iff (r : Registry) (t : ValueType) (raw : String) :
    (∀ name, ((Call.convert t (some raw)).run r).1 ≠ .converted (.error (.noConverter name))) ↔
      (r.current? t).isSome := by
  show (∀ name, Reply.converted (r.convert t (some raw)).1 ≠ _) ↔ _
  have houtcome := outcome_resolve r t
  unfold convert
  generalize r.resolve t = p at houtcome
  obtain ⟨outcome, r'⟩ := p
  cases hcurrent : r.current? t with
  | none =>
    rw [hcurrent] at houtcome
    obtain rfl : outcome = .error (.noConverter t.fullName) := houtcome
    exact iff_of_false (fun h => h t.fullName rfl) nofun
  | some c =>
    rw [hcurrent] at houtcome
    obtain rfl : outcome = .ok c := houtcome
    refine iff_of_true (fun name h => ?_) rfl
    have hconvert := convert_ne_noConverter r'.names c t raw name
    dsimp only at h
    cases hc : c.convert r'.names t raw with
    | error e =>
      rw [hc] at h hconvert
      exact hconvert (congrArg _ (Except.error.inj (Reply.converted.inj h)))
    | ok v =>
      rw [hc] at h
      nomatch h

private theorem offers_filter_registers (history : List Call) (t : ValueType) :
    offers t (history.filter Call.registers) = offers t history := by
  rw [offers, List.filterMap_filter, offers]
  congr 1
  funext call
  cases call with
  | register o => rfl
  | convert u raw => rfl
  | has u => rfl

end

/-- Whether a type has a converter, asked for by itself or by converting any text, depends on the entries of the
history and on the type.  So it is the same for the history without the calls that look for converters. -/
theorem resolvable_after (customTypes : List CustomType) (builtins : Bool) (history : List Call) (t : ValueType)
    (raw : String) :
    let r := (initial customTypes builtins).after history
    let resolvable := Resolvable customTypes (HasEntry customTypes builtins history) t
    (((Call.has t).run r).1 = .has true ↔ resolvable) ∧
      ((∀ name, ((Call.convert t (some raw)).run r).1 ≠ .converted (.error (.noConverter name))) ↔ resolvable) ∧
      ((Call.has t).run r).1 =
        ((Call.has t).run ((initial customTypes builtins).after (history.filter Call.registers))).1 := by
  intro r resolvable
  have hiff (history : List Call) := (justified_after customTypes builtins history).isSome_current?_iff t
  have hentries : HasEntry customTypes builtins (history.filter Call.registers) =
      HasEntry customTypes builtins history := by
    funext u
    rw [eq_iff_iff, hasEntry_iff, hasEntry_iff, offers_filter_registers]
  refine ⟨?_, ?_, ?_⟩
  · rw [run_has, Reply.has.injEq]
    exact hiff history
  · rw [run_convert_ne_iff]
    exact hiff history
  · rw [run_has, run_has, Reply.has.injEq, Bool.eq_iff_iff, hiff, hiff, hentries]

end Registry

end LayeredConfig
