import LayeredConfig.Proofs.Accessor.Likeness
import LayeredConfig.Proofs.Accessor.Results
import LayeredConfig.Proofs.Registry.Agreement

/-!
# Registries that agree for an accessor

Where no name of a type is ambiguous, an accessor does not tell registries apart that know the same types once it has
converted a text (`agreeing`).  They go on like that whatever else is asked for with both (`asks_agreeing`).  Another
accessor that is read with both may get a result with one of them only, when that one knows a type already; but it has
looked for its converter then, and finds it from then on without changing the registry (`Spent`).
-/

namespace LayeredConfig.Accessor

variable {s : Settings} {r r' : Registry} {a a' : Accessor} {v : View}

/-! ### What reading asks for -/

namespace Likeness

/-- Registries with the same converters that know the same types once a text was converted.  The types `done` are
known already. -/
structure Agrees (s : Settings) (customTypes : List CustomType) (done : ValueType → Prop) (r r' : Registry) :
    Prop where
  orderly : r.Orderly customTypes
  orderly' : r'.Orderly customTypes
  registered : r'.registered = r.registered
  current : ∀ t, r'.current? t = r.current? t
  settled : ∀ t, (s.ready r').Settled t ↔ (s.ready r).Settled t
  done : ∀ t, done t → r.Settled t ∧ r'.Settled t

/-- Accessors that have the same settings, look for no converter any more and get their suffixes alike. -/
structure Spent (done : ValueType → Prop) (a a' : Accessor) : Prop where
  settings : a'.settings = a.settings
  suffixes : a.suffixes.AreTextual
  suffixes' : a'.suffixes.AreTextual
  settled : a.settings.converter.isSome ∨ done a.settings.type

variable {customTypes : List CustomType} {done : ValueType → Prop}

theorem Agrees.refl (h : r.Orderly customTypes) : Agrees s customTypes (fun _ => False) r r :=
  ⟨h, h, rfl, fun _ => rfl, fun _ => .rfl, fun _ hdone => hdone.elim⟩

private theorem Agrees.of_asked {q q' : Registry} (h : Agrees s customTypes done r r') (hq : r.Asked q)
    (hq' : r'.Asked q') (hsettled : ∀ t, (s.ready q').Settled t ↔ (s.ready q).Settled t) :
    Agrees s customTypes done q q' where
  orderly := h.orderly.asked hq
  orderly' := h.orderly'.asked hq'
  registered := by rw [hq'.extends.registered, hq.extends.registered, h.registered]
  current t := by rw [hq'.current?_eq, hq.current?_eq, h.current]
  settled := hsettled
  done t ht := ⟨(h.done t ht).1.extends hq.extends, (h.done t ht).2.extends hq'.extends⟩

private theorem Agrees.active? (h : Agrees s customTypes done r r') (t : ValueType) : r'.active? t = r.active? t := by
  rw [Registry.active?, h.registered, Registry.active?]

private theorem settled_ready_resolve (s : Settings) (hclosed : r.Closed) (t u : ValueType) :
    (s.ready (r.resolve t).2).Settled u ↔
      (s.ready r).Settled u ∨ (r.current? t).isSome ∧ Registry.Derives (fun t => (r.active? t).isSome) t u := by
  have hactive (t u : ValueType) : (r.resolve t).2.active? u = r.active? u := (Registry.extends_resolve r t).active? u
  unfold Settings.ready
  cases s.converter with
  | some c => exact Registry.settled_resolve_iff hclosed t u
  | none =>
    dsimp only
    rw [Registry.settled_resolve_iff (hclosed.resolve t), Registry.settled_resolve_iff hclosed,
      Registry.settled_resolve_iff hclosed, Registry.current?_resolve]
    simp only [hactive, or_right_comm]

private theorem Agrees.resolve (h : Agrees s customTypes done r r') (t : ValueType) :
    Agrees s customTypes done (r.resolve t).2 (r'.resolve t).2 := by
  refine h.of_asked (Registry.asked_resolve r t) (Registry.asked_resolve r' t) fun u => ?_
  rw [settled_ready_resolve s h.orderly'.closed, settled_ready_resolve s h.orderly.closed, h.settled, h.current]
  simp only [h.active?]

/-- They go on to agree when another accessor converts a text. -/
private theorem Agrees.ready (h : Agrees s customTypes done r r') (q : Settings) :
    Agrees s customTypes done (q.ready r) (q.ready r') := by
  unfold Settings.ready
  cases q.converter with
  | some c => exact h
  | none => exact h.resolve q.type

private theorem Agrees.converterAt? (h : Agrees s customTypes done r r') (q : Settings) :
    q.converterAt? r' = q.converterAt? r := by
  rw [Settings.converterAt?, h.current, Settings.converterAt?]

/-- Another accessor converts a text alike with both registries, or it has its converter from then on. -/
private theorem Agrees.convert (h : Agrees s customTypes done r r') (q : Settings) (raw : String) :
    ∃ done' : ValueType → Prop, (∀ t, done t → done' t) ∧ Agrees s customTypes done' (q.ready r) (q.ready r') ∧
      ((decode q r' raw).1 = (decode q r raw).1 ∨ q.converter.isSome ∨ done' q.type) := by
  have hready := h.ready q
  cases hconverter : q.converterAt? r with
  | none =>
    refine ⟨done, fun _ => id, hready, .inl ?_⟩
    rw [outcome_decode, outcome_decode, h.converterAt?, hconverter]
  | some c =>
    cases hown : q.converter with
    | some c => exact ⟨done, fun _ => id, hready, .inr (.inl rfl)⟩
    | none =>
      have hcurrent : (r.current? q.type).isSome := by
        rw [Settings.converterAt?, hown, Option.none_or] at hconverter
        rw [hconverter]
        rfl
      have hfound {r : Registry} (hr : (r.current? q.type).isSome) : (q.ready r).Settled q.type := by
        rw [Settings.ready, hown]
        exact Registry.settled_resolve hr
      refine ⟨fun t => t = q.type ∨ done t, fun t => .inr, { hready with done := ?_ }, .inr (.inr (.inl rfl))⟩
      rintro t (rfl | ht)
      · exact ⟨hfound hcurrent, hfound (by rwa [h.current])⟩
      · exact hready.done t ht

/-- Another accessor is read with both registries. -/
private theorem Agrees.optionalValue (h : Agrees s customTypes done r r') (ha : a.suffixes.AreTextual) (v : View) :
    ∃ done' : ValueType → Prop, (∀ t, done t → done' t) ∧
      Agrees s customTypes done' (a.optionalValue v r).registry (a.optionalValue v r').registry ∧
        ((a.optionalValue v r').accessor = (a.optionalValue v r).accessor ∨
          Spent done' (a.optionalValue v r).accessor (a.optionalValue v r').accessor) := by
  cases a with
  | mk q suffixes m =>
    obtain ⟨hother, hown⟩ := ha.presentSuffixes_eq (v := v) h.orderly.texts (h.active? .text)
    have htextual := ha.presentSuffixes v r
    unfold Accessor.optionalValue
    dsimp only [Accessor.suffixes] at hother hown htextual ⊢
    rw [hother]
    generalize presentSuffixes v r suffixes = p at hown htextual ⊢
    obtain ⟨outcome, suffixes', _, asked⟩ := p
    obtain rfl : _ = r := hown
    cases kept? v q m with
    | some value => exact ⟨done, fun _ => id, h, .inl rfl⟩
    | none =>
      cases outcome with
      | error e => exact ⟨done, fun _ => id, h, .inl rfl⟩
      | ok texts =>
        dsimp only
        unfold result
        cases (lookup v q texts).raw with
        | none => exact ⟨done, fun _ => id, h, .inl rfl⟩
        | some raw =>
          obtain ⟨done', hdone, hagrees, hconverted⟩ := h.convert q raw
          rw [← registry_decode q _ raw, ← registry_decode q r' raw] at hagrees
          dsimp only
          generalize decode q _ raw = x, decode q r' raw = x' at hagrees hconverted ⊢
          obtain ⟨outcome, left⟩ := x
          obtain ⟨outcome', left'⟩ := x'
          rcases hconverted with hsame | hsettled
          · obtain rfl : outcome' = outcome := hsame
            cases outcome' with
            | error e => exact ⟨done', hdone, hagrees, .inl rfl⟩
            | ok value => exact ⟨done', hdone, hagrees, .inl rfl⟩
          -- What they remember may differ from here on, but not what they look for.
          · have hspent (m m' : Memory) : Spent done' (.mk q suffixes' m) (.mk q suffixes' m') :=
              ⟨rfl, htextual, htextual, hsettled⟩
            cases outcome with
            | error e => cases outcome' with
              | error e' => exact ⟨done', hdone, hagrees, .inr (hspent _ _)⟩
              | ok value' => exact ⟨done', hdone, hagrees, .inr (hspent _ _)⟩
            | ok value => cases outcome' with
              | error e' => exact ⟨done', hdone, hagrees, .inr (hspent _ _)⟩
              | ok value' => exact ⟨done', hdone, hagrees, .inr (hspent _ _)⟩

private theorem Spent.mono {done' : ValueType → Prop} (h : Spent done a a') (hdone : ∀ t, done t → done' t) :
    Spent done' a a' := ⟨h.settings, h.suffixes, h.suffixes', h.settled.imp_right (hdone _)⟩

private theorem Spent.optionalValue (h : Spent done a a') (v : View) (r r' : Registry) :
    Spent done (a.optionalValue v r).accessor (a'.optionalValue v r').accessor := by
  have hsettings := (optionalValue_eq v r a).2.2
  refine ⟨?_, areTextual_optionalValue h.suffixes v r, areTextual_optionalValue h.suffixes' v r', ?_⟩
  · rw [hsettings, (optionalValue_eq v r' a').2.2, h.settings]
  · rw [hsettings]
    exact h.settled

private theorem Spent.rawValue (h : Spent done a a') (v : View) (r r' : Registry) :
    Spent done (a.rawValue v r).accessor (a'.rawValue v r').accessor := by
  have hsettings := (rawValue_eq v r a).2
  refine ⟨?_, areTextual_rawValue h.suffixes v r, areTextual_rawValue h.suffixes' v r', ?_⟩
  · rw [hsettings, (rawValue_eq v r' a').2, h.settings]
  · rw [hsettings]
    exact h.settled

end Likeness

end LayeredConfig.Accessor
