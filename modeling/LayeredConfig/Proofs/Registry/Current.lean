import LayeredConfig.Proofs.Registry.Precedence

/-!
# The current converter of a type

Whatever calls a registry answers, a type that has a converter never loses it (`Covers.isSome_current?`), though
another one may come in its place.  A list keeps the converter that its items had when it was discovered
(`lookup_discovered_after`).
-/

namespace LayeredConfig.Registry

variable {r r' r'' : Registry} {t u : ValueType}

/-- Looking for a converter fails in one way. -/
theorem error_of_resolve {e : ConfigError} (h : r.resolve t = (.error e, r')) : ∃ name, e = .noConverter name := by
  unfold resolve at h
  split at h
  · cases h
  · cases h
  · split at h
    · split at h
      · cases h
      · exact ⟨_, (Except.error.inj (Prod.mk.inj h).1).symm⟩
    · split at h
      · cases h
      · exact ⟨_, (Except.error.inj (Prod.mk.inj h).1).symm⟩
    · exact ⟨_, (Except.error.inj (Prod.mk.inj h).1).symm⟩

/-- The converter that a type has at the moment. -/
def current? (r : Registry) (t : ValueType) : Option Converter := (r.resolve t).1.toOption

/-- A registry that has at least the converters of another one, not necessarily the same. -/
structure Covers (r r' : Registry) : Prop where
  customTypes : r'.customTypes = r.customTypes
  active : ∀ t, (r.active? t).isSome → (r'.active? t).isSome
  discovered : ∀ t, (r.discovered.lookup t).isSome → (r'.discovered.lookup t).isSome

private theorem Covers.refl (r : Registry) : r.Covers r := ⟨rfl, fun _ h => h, fun _ h => h⟩

private theorem Covers.trans (h : r.Covers r') (h' : r'.Covers r'') : r.Covers r'' :=
  ⟨h'.customTypes.trans h.customTypes, fun t ht => h'.active t (h.active t ht),
    fun t ht => h'.discovered t (h.discovered t ht)⟩

private theorem Extends.covers (h : r.Extends r') : r.Covers r' :=
  ⟨h.customTypes, fun t ht => by rwa [h.active?], fun _ ht => h.discovered.sublist.lookup_isSome ht⟩

private theorem covers_accept (r : Registry) (t : ValueType) (g : Registration) : r.Covers (r.accept t g) := by
  refine ⟨rfl, fun u hu => ?_, fun u hu => hu⟩
  rw [active?_accept]
  split
  · rfl
  · exact hu

/-- A call registers a converter or asks for one. -/
theorem Call.run_cases (r : Registry) (call : Call) :
    (call.run r).2 = r ∨ (∃ o : Offer, (call.run r).2 = r.accept o.type o.registration) ∨
      ∃ u, (call.run r).2 = (r.resolve u).2 := by
  cases call with
  | register o =>
    rw [Call.run]
    split
    · rename_i r' hr'
      exact (register_cases hr').imp_right fun h => .inl ⟨o, h⟩
    · exact .inl rfl
  | convert u raw =>
    show (r.convert u raw).2 = r ∨ _
    rw [registry_convert]
    cases raw with
    | none => exact .inl rfl
    | some raw => exact .inr (.inr ⟨u, registry_convert r u (some raw)⟩)
  | has u => exact .inr (.inr ⟨u, registry_hasConverter r u⟩)

private theorem covers_run (r : Registry) (call : Call) : r.Covers (call.run r).2 := by
  rcases Call.run_cases r call with h | ⟨o, h⟩ | ⟨u, h⟩
  · rw [h]
    exact .refl r
  · rw [h]
    exact covers_accept r _ _
  · rw [h]
    exact (extends_resolve r u).covers

theorem covers_after (r : Registry) (calls : List Call) : r.Covers (r.after calls) := by
  induction calls generalizing r with
  | nil => exact .refl r
  | cons call calls ih => exact (covers_run r call).trans (ih _)

/-- Where a type gets its converter from. -/
theorem current?_eq (r : Registry) (t : ValueType) :
    r.current? t = (((r.active? t).map Registration.converter).or (r.discovered.lookup t)).or
      (match t with
        | .list element => (r.current? element).map (.list element)
        | .custom name => r.customConverter? name
        | _ => none) := by
  cases hactive : r.active? t with
  | some g =>
    rw [current?, resolve.eq_def, hactive]
    rfl
  | none =>
    cases hdiscovered : r.discovered.lookup t with
    | some c =>
      rw [current?, resolve.eq_def, hactive, hdiscovered]
      rfl
    | none =>
      rw [current?, resolve.eq_def, hactive, hdiscovered]
      cases t with
      | list element =>
        dsimp only [Option.map_none, Option.none_or]
        rw [current?]
        generalize r.resolve element = p
        obtain ⟨_ | c, r'⟩ := p
        · rfl
        · rfl
      | custom name =>
        dsimp only [Option.map_none, Option.none_or]
        cases r.customConverter? name with
        | none => rfl
        | some c => rfl
      | _ => rfl

/-- A type that had a converter once has one from then on. -/
theorem Covers.isSome_current? (h : r.Covers r') (ht : (r.current? t).isSome) : (r'.current? t).isSome := by
  have hor {α : Type} {a b c a' b' c' : Option α} (ha : a.isSome → a'.isSome) (hb : b.isSome → b'.isSome)
      (hc : c.isSome → c'.isSome) (hsome : ((a.or b).or c).isSome) : ((a'.or b').or c').isSome := by
    rw [Option.isSome_or, Option.isSome_or, Bool.or_eq_true, Bool.or_eq_true] at hsome ⊢
    exact hsome.imp (Or.imp ha hb) hc
  have hactive {t : ValueType} (ha : ((r.active? t).map Registration.converter).isSome) :
      ((r'.active? t).map Registration.converter).isSome := by
    rw [Option.isSome_map] at ha ⊢
    exact h.active t ha
  induction t with
  | list element ih =>
    rw [current?_eq] at ht ⊢
    refine hor hactive (h.discovered _) (fun helement => ?_) ht
    rw [Option.isSome_map] at helement ⊢
    exact ih helement
  | custom name =>
    rw [current?_eq] at ht ⊢
    have hcustom : r'.customConverter? name = r.customConverter? name := by
      rw [customConverter?, h.customTypes, customConverter?]
    refine hor hactive (h.discovered _) (fun hname => ?_) ht
    show (r'.customConverter? name).isSome
    rw [hcustom]
    exact hname
  | _ =>
    rw [current?_eq] at ht ⊢
    exact hor hactive (h.discovered _) id ht

/-! ### Asking -/

/-- What is discovered for a type is the converter that it has at that moment. -/
theorem discovered_resolve (r : Registry) (u t : ValueType) :
    (r.resolve u).2.discovered.lookup t = r.discovered.lookup t ∨
      r.active? t = none ∧ r.discovered.lookup t = none ∧ (r.current? t).isSome ∧
        (r.resolve u).2.discovered.lookup t = r.current? t := by
  have hdiscover {r' : Registry} {u : ValueType} {c : Converter} (hactive : r.active? u = none)
      (hdiscovered : r.discovered.lookup u = none) (hcurrent : r.current? u = some c)
      (h : r'.discovered.lookup t = r.discovered.lookup t ∨
        r.active? t = none ∧ r.discovered.lookup t = none ∧ (r.current? t).isSome ∧
          r'.discovered.lookup t = r.current? t) :
      (r'.discover u c).discovered.lookup t = r.discovered.lookup t ∨
        r.active? t = none ∧ r.discovered.lookup t = none ∧ (r.current? t).isSome ∧
          (r'.discover u c).discovered.lookup t = r.current? t := by
    rw [discover, remember, List.lookup_cons]
    by_cases ht : t = u
    · subst ht
      rw [hcurrent, beq_self_eq_true]
      exact .inr ⟨hactive, hdiscovered, rfl, rfl⟩
    · rw [beq_eq_false_iff_ne.2 ht]
      exact h
  fun_induction resolve r u with
  | case3 element item r' hitem hdiscovered hactive ih =>
    rw [hitem] at ih
    refine hdiscover hactive hdiscovered ?_ ih
    rw [current?_eq, hactive, hdiscovered]
    show (r.current? element).map (Converter.list element) = _
    rw [current?, hitem]
    rfl
  | case4 element e r' hitem hdiscovered hactive ih => rwa [hitem] at ih
  | case5 name c hcustom hdiscovered hactive =>
    refine hdiscover hactive hdiscovered ?_ (.inl rfl)
    rw [current?_eq, hactive, hdiscovered]
    exact hcustom
  | _ => exact .inl rfl

/-- Asking for a converter changes none. -/
theorem current?_resolve (r : Registry) (u t : ValueType) : (r.resolve u).2.current? t = r.current? t := by
  have hactive (t : ValueType) : (r.resolve u).2.active? t = r.active? t := (extends_resolve r u).active? t
  -- What is discovered now is what would be found again.
  have hkept {t : ValueType} {beyond : Option Converter}
      (hnow : r.current? t = (((r.active? t).map Registration.converter).or (r.discovered.lookup t)).or beyond) :
      (((r.active? t).map Registration.converter).or ((r.resolve u).2.discovered.lookup t)).or beyond =
        r.current? t := by
    rcases discovered_resolve r u t with h | ⟨hnone, hdiscovered, -, h⟩
    · rw [h, hnow]
    · rw [hnone, hdiscovered] at hnow
      have hnow : r.current? t = beyond := hnow
      rw [h, hnone, hnow]
      exact Option.or_self
  induction t with
  | list element ih =>
    rw [current?_eq (r.resolve u).2, hactive]
    dsimp only
    rw [ih]
    exact hkept (current?_eq r (.list element))
  | custom name =>
    have hcustom : (r.resolve u).2.customConverter? name = r.customConverter? name := by
      rw [customConverter?, (extends_resolve r u).customTypes, customConverter?]
    rw [current?_eq (r.resolve u).2, hactive]
    dsimp only
    rw [hcustom]
    exact hkept (current?_eq r (.custom name))
  | _ =>
    rw [current?_eq (r.resolve u).2, hactive]
    exact hkept (current?_eq r _)

theorem Asked.current?_eq (h : r.Asked r') (t : ValueType) : r'.current? t = r.current? t := by
  induction h with
  | refl => rfl
  | resolve _ u ih => exact (current?_resolve _ u t).trans ih

/-- What looking for a converter gives. -/
theorem outcome_resolve (r : Registry) (t : ValueType) :
    (r.resolve t).1 = match r.current? t with
      | some c => .ok c
      | none => .error (.noConverter t.fullName) := by
  have hnamed {e : ConfigError} (h : (r.resolve t).1 = .error e) : e = .noConverter t.fullName := by
    revert h
    fun_cases resolve r t with
    | case1 | case2 | case3 | case5 => exact fun h => nomatch h
    | case4 | case6 | case7 => exact fun h => (Except.error.inj h).symm
  unfold current?
  cases houtcome : (r.resolve t).1 with
  | ok c => rfl
  | error e => rw [hnamed houtcome]; rfl

/-- A type that has a converter is settled when it was asked for. -/
theorem settled_resolve (h : (r.current? t).isSome) : (r.resolve t).2.Settled t := by
  revert h
  unfold current?
  fun_cases resolve r t with
  | case1 _ g hactive => exact fun _ => .inl (by rw [hactive]; rfl)
  | case2 hactive c hdiscovered => exact fun _ => .inr (by rw [hdiscovered]; rfl)
  | case3 | case5 =>
    refine fun _ => .inr ?_
    rw [discover, remember, List.lookup_cons_self]
    rfl
  | case4 | case6 | case7 => exact fun h => absurd h Bool.false_ne_true

/-- A type without a converter leaves the registry as it was. -/
theorem registry_resolve_of_current?_eq_none (h : r.current? t = none) : (r.resolve t).2 = r := by
  revert h
  unfold current?
  fun_induction resolve r t with
  | case3 | case5 => exact fun h => absurd h (Option.some_ne_none _)
  | case4 element e r' hitem hdiscovered hactive ih =>
    rw [hitem] at ih
    exact fun _ => ih rfl
  | _ => exact fun _ => rfl

/-- The converter of their items that lists of `t` keep: the one that the items had when the list was discovered. -/
def captured? (t : ValueType) (r : Registry) : List Call → Option Converter
  | [] => none
  | call :: rest =>
    if ((call.run r).2.discovered.lookup (.list t)).isSome then r.current? t else captured? t (call.run r).2 rest

/-- A list is discovered with the converter that its items have at that moment. -/
private theorem lookup_discovered_resolve (r : Registry) (u t : ValueType) :
    (r.resolve u).2.discovered.lookup (.list t) = r.discovered.lookup (.list t) ∨
      r.discovered.lookup (.list t) = none ∧ (r.current? t).isSome ∧
        (r.resolve u).2.discovered.lookup (.list t) = (r.current? t).map (.list t) := by
  rcases discovered_resolve r u (.list t) with h | ⟨hactive, hdiscovered, hsome, h⟩
  · exact .inl h
  · have hcurrent : r.current? (.list t) = (r.current? t).map (.list t) := by
      rw [current?_eq, hactive, hdiscovered]
      rfl
    rw [hcurrent, Option.isSome_map] at hsome
    exact .inr ⟨hdiscovered, hsome, h.trans hcurrent⟩

private theorem lookup_discovered_run (r : Registry) (call : Call) (t : ValueType) :
    (call.run r).2.discovered.lookup (.list t) = r.discovered.lookup (.list t) ∨
      r.discovered.lookup (.list t) = none ∧ (r.current? t).isSome ∧
        (call.run r).2.discovered.lookup (.list t) = (r.current? t).map (.list t) := by
  rcases Call.run_cases r call with h | ⟨o, h⟩ | ⟨u, h⟩
  · rw [h]
    exact .inl rfl
  · rw [h]
    exact .inl rfl
  · rw [h]
    exact lookup_discovered_resolve r u t

/-- What was discovered for a list is kept for good. -/
theorem lookup_discovered_after (r : Registry) (calls : List Call) (t : ValueType) :
    (r.after calls).discovered.lookup (.list t) =
      (r.discovered.lookup (.list t)).or ((captured? t r calls).map (.list t)) := by
  induction calls generalizing r with
  | nil =>
    rw [captured?, Option.map_none, Option.or_none]
    rfl
  | cons call calls ih =>
    show ((call.run r).2.after calls).discovered.lookup (.list t) = _
    rw [ih, captured?]
    rcases lookup_discovered_run r call t with h | ⟨hnone, hsome, h⟩
    · rw [h]
      cases r.discovered.lookup (.list t) with
      | none => rfl
      | some c => rfl
    · rw [h, hnone]
      obtain ⟨item, hitem⟩ := Option.isSome_iff_exists.1 hsome
      rw [hitem]
      rfl

/-- Without a converter of its items a list was not discovered. -/
theorem captured?_eq_none {calls : List Call} (h : (r.after calls).current? t = none) : captured? t r calls = none := by
  induction calls generalizing r with
  | nil => rfl
  | cons call calls ih =>
    rw [captured?]
    split
    · rw [← Option.not_isSome_iff_eq_none]
      intro hsome
      have hlater := (covers_after r (call :: calls)).isSome_current? hsome
      rw [h] at hlater
      nomatch hlater
    · exact ih h

end LayeredConfig.Registry
