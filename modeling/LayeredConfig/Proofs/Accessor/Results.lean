import LayeredConfig.Proofs.Accessor.Asking
import LayeredConfig.Proofs.Converter.Exactness

/-!
# The results of accessors

`Shapes` lists what a step of building can make of an accessor (`shapes_of_step`).  So an accessor that was just built
remembers nothing (`memory_of_build`), and reading it changes what it remembers only by working out a result
(`optionalValue_eq`).  If it is one of a type without floating-point numbers, then neither its default nor anything
that it works out has any, with registries of exact converters (`IsExact.optionalValue`).
-/

namespace LayeredConfig.Accessor

variable {v : View} {r : Registry} {a b : Accessor} {key : String}

/-! ### Building -/

/-- What a step of building can make of an accessor. -/
inductive Shapes (r : Registry) (a : Accessor) : Accessor → Prop
  /-- A converter that is kept is one for the same type. -/
  | reshaped (t : ValueType) (shape : Shape) (c : Option Converter)
    (hc : c = none ∨ c = a.settings.converter ∧ t = a.settings.type) : Shapes r a (a.reshape t shape c)
  | default (texts : List String) :
    Shapes r a (a.modifySettings fun s => { s with default := makeDefault r.customTypes s texts })
  | textDefault {raw : String} {value : Value} (h : (decode a.settings r raw).1 = .ok value) :
    Shapes r a (a.modifySettings fun s => { s with default := some value })
  | converter (recipe : Recipe) :
    Shapes r a (a.modifySettings fun s => { s with converter := some (recipe.converter r.customTypes s.type) })
  | lifetime (d : Duration) : Shapes r a (a.modifySettings fun s => { s with lifetime := some d })
  | expands (on : Bool) : Shapes r a (a.modifySettings fun s => { s with expands := on })
  | suffixed (add : Suffixes → Suffixes) : Shapes r a (a.addSuffix add)

private theorem shapes_addSource (r : Registry) (a source : Accessor) : Shapes r a (a.addSource source) := by
  unfold addSource
  split
  · exact .suffixed _
  · have hsame : a.addSuffix id = a := by
      unfold addSuffix
      split
      · rfl
      · cases a with
        | mk s suffixes m => rfl
    have hnothing : Shapes r a (a.addSuffix id) := .suffixed id
    rwa [hsame] at hnothing

theorem shapes_of_step {taken : BuildStep} (h : (step v r a taken).outcome = .ok b) : Shapes r a b := by
  cases taken with
  | type t =>
    obtain rfl := Except.ok.inj h
    exact .reshaped t _ none (.inl rfl)
  | list =>
    obtain rfl := Except.ok.inj h
    exact .reshaped _ .list _ (.inr ⟨rfl, rfl⟩)
  | set =>
    obtain rfl := Except.ok.inj h
    exact .reshaped _ .set _ (.inr ⟨rfl, rfl⟩)
  | default texts =>
    obtain rfl := Except.ok.inj h
    exact .default texts
  | textDefault raw =>
    rw [step, withTextDefault] at h
    split at h
    · cases h
    · dsimp only at h
      split at h
      · cases h
      · rename_i value r' hdecode
        obtain rfl := Except.ok.inj h
        exact .textDefault (congrArg Prod.fst hdecode)
  | converter recipe =>
    obtain rfl := Except.ok.inj h
    exact .converter recipe
  | lifetime d =>
    obtain rfl := Except.ok.inj h
    exact .lifetime d
  | expands on =>
    obtain rfl := Except.ok.inj h
    exact .expands on
  | suffix text =>
    obtain rfl := Except.ok.inj h
    exact .suffixed _
  | suffixFrom key steps =>
    rw [step] at h
    split at h
    · cases h
    · obtain rfl := Except.ok.inj h
      exact shapes_addSource r a _

/-- What holds of a new accessor and is kept by each step of building, with the registry that it leaves behind, holds
of what was built. -/
private theorem build_induction {P : Registry → Accessor → Prop} (hstart : P r (start key))
    (hstep : ∀ r a b taken, P r a → (step v r a taken).outcome = .ok b → P (step v r a taken).registry b)
    {steps : List BuildStep} (h : (build v r key steps).outcome = .ok a) : P (build v r key steps).registry a := by
  have hsteps (steps : List BuildStep) (r : Registry) (b : Accessor) (hb : P r b)
      (h : (applySteps v r b (.ofList steps)).outcome = .ok a) :
      P (applySteps v r b (.ofList steps)).registry a := by
    induction steps generalizing r b with
    | nil =>
      obtain rfl := Except.ok.inj h
      exact hb
    | cons first rest ih =>
      rw [BuildSteps.ofList, applySteps] at h ⊢
      dsimp only at h ⊢
      cases hfirst : (step v r b first).outcome with
      | error e =>
        rw [hfirst] at h
        cases h
      | ok c =>
        rw [hfirst] at h
        exact ih _ c (hstep r b c first hb hfirst) h
  exact hsteps steps r (start key) hstart h

private theorem Shapes.memory_eq (h : Shapes r a b) (ha : a.memory = .fresh) : b.memory = .fresh := by
  cases h with
  | reshaped => rfl
  | suffixed add =>
    unfold addSuffix
    split
    · exact ha
    · exact ha
  | _ => exact ha

/-- An accessor that was just built remembers nothing. -/
theorem memory_of_build {steps : List BuildStep} (h : (build v r key steps).outcome = .ok a) : a.memory = .fresh :=
  build_induction (P := fun _ a => a.memory = .fresh) rfl (fun _ _ _ _ ha hb => (shapes_of_step hb).memory_eq ha) h

/-! ### Reading -/

/-- The result that reading works out, unless it serves what was kept or fails. -/
def recomputed? (v : View) (r : Registry) (a : Accessor) : Option (Option Value) :=
  match kept? v a.settings a.memory with
  | some _ => none
  | none => (a.optionalValue v r).outcome.toOption

/-- Reading remembers what it works out, tells of it if it differs from what was remembered, and changes no
settings. -/
theorem optionalValue_eq (v : View) (r : Registry) (a : Accessor) :
    (a.optionalValue v r).accessor.memory.value = (a.recomputed? v r).getD a.memory.value ∧
      (a.optionalValue v r).change = (a.recomputed? v r).bind (changeFrom a.memory) ∧
      (a.optionalValue v r).accessor.settings = a.settings := by
  obtain ⟨s, suffixes, m⟩ := a
  rw [recomputed?]
  dsimp only [settings, memory]
  cases hkept : kept? v s m with
  | some value =>
    rw [optionalValue, hkept]
    exact ⟨rfl, rfl, rfl⟩
  | none =>
    rw [optionalValue, hkept]
    dsimp only
    cases (presentSuffixes v r suffixes).outcome with
    | error e => exact ⟨rfl, rfl, rfl⟩
    | ok texts =>
      dsimp only
      generalize result s (presentSuffixes v r suffixes).registry (lookup v s texts).raw = p
      obtain ⟨_ | value, r'⟩ := p
      · exact ⟨rfl, rfl, rfl⟩
      · exact ⟨rfl, rfl, rfl⟩

theorem rawValue_eq (v : View) (r : Registry) (a : Accessor) :
    (a.rawValue v r).accessor.memory.value = a.memory.value ∧ (a.rawValue v r).accessor.settings = a.settings := by
  obtain ⟨s, suffixes, m⟩ := a
  rw [rawValue]
  dsimp only
  cases (presentSuffixes v r suffixes).outcome with
  | error e => exact ⟨rfl, rfl⟩
  | ok texts => exact ⟨rfl, rfl⟩

/-! ### Results without floating-point numbers -/

/-- An accessor whose own converter is exact.  If it is one of a type without floating-point numbers, then neither its
default nor what it remembers has any. -/
structure IsExact (a : Accessor) : Prop where
  converter : ∀ c, a.settings.converter = some c → c.IsExact
  default : a.settings.type.isExact = true → ∀ v, a.settings.default = some v → v.isExact = true
  value : a.settings.type.isExact = true → ∀ v, a.memory.value = some v → v.isExact = true

private theorem isExact_of_distinct {convert : String → Except ConfigError Value}
    (hconvert : ∀ token v, convert token = .ok v → v.isExact = true) {kept values : List Value} {tokens : List String}
    (hkept : ∀ v ∈ kept, v.isExact = true) (h : Shape.distinct Value.same convert kept tokens = .ok values) :
    ∀ v ∈ values, v.isExact = true := by
  induction tokens generalizing kept with
  | nil =>
    obtain rfl := Except.ok.inj h
    exact hkept
  | cons token rest ih =>
    rw [Shape.distinct] at h
    obtain ⟨v, hv, h⟩ := bind_eq_ok.1 h
    refine ih (fun w hw => ?_) h
    split at hw
    · exact hkept w hw
    · rcases List.mem_append.1 hw with hw | hw
      · exact hkept w hw
      · obtain rfl := List.mem_singleton.1 hw
        exact hconvert token _ hv

/-- Of whatever shape a result is, it has no numbers that its items do not have. -/
private theorem isExact_of_shape {convert : String → Except ConfigError Value}
    (hconvert : ∀ token v, convert token = .ok v → v.isExact = true) {shape : Shape} {raw : String} {v : Value}
    (h : shape.decode key raw convert = .ok v) : v.isExact = true := by
  cases shape with
  | scalar =>
    rw [Shape.decode] at h
    cases hraw : convert raw with
    | error e =>
      rw [hraw] at h
      cases h
    | ok w =>
      rw [hraw] at h
      obtain rfl := Except.ok.inj h
      exact hconvert raw w hraw
  | list =>
    obtain ⟨values, hvalues, h⟩ := bind_eq_ok.1 h
    obtain ⟨tokens, -, hvalues⟩ := bind_eq_ok.1 hvalues
    obtain rfl := Except.ok.inj h
    exact Value.areExact_iff.2 (Converter.forall_mem_of_mapM_eq_ok hconvert hvalues)
  | set =>
    obtain ⟨values, hvalues, h⟩ := bind_eq_ok.1 h
    obtain ⟨tokens, -, hvalues⟩ := bind_eq_ok.1 hvalues
    obtain rfl := Except.ok.inj h
    exact Value.areExact_iff.2 (isExact_of_distinct hconvert (by simp) hvalues)

private theorem isExact_of_decode {s : Settings} (hr : r.IsExact) (hconverter : ∀ c, s.converter = some c → c.IsExact)
    (ht : s.type.isExact = true) {raw : String} {value : Value} (h : (decode s r raw).1 = .ok value) :
    value.isExact = true := by
  unfold decode at h
  cases hc : s.converter with
  | some c =>
    rw [hc] at h
    dsimp only at h
    exact isExact_of_shape (fun _ _ => (hconverter c hc).convert ht) h
  | none =>
    have hresolve := (hr.resolve s.type).1
    rw [hc] at h
    dsimp only at h
    generalize r.resolve s.type = p at h hresolve
    obtain ⟨_ | c, r'⟩ := p
    · cases h
    · dsimp only at h
      exact isExact_of_shape (fun _ _ => (hresolve c rfl).convert ht) h

private theorem isExact_of_makeDefault {customTypes : List CustomType} (htypes : ∀ t ∈ customTypes, t.IsExact)
    {s : Settings} (ht : s.type.isExact = true) {texts : List String} {value : Value}
    (h : makeDefault customTypes s texts = some value) : value.isExact = true := by
  have hmake {text : String} {value : Value} (h : Recipe.make customTypes s.type text = .ok value) :
      value.isExact = true := Recipe.isExact_of_make htypes ht h
  have hitems (h : ((texts.mapM (Recipe.make customTypes s.type)).toOption.map Value.list) = some value) :
      value.isExact = true := by
    cases hvalues : texts.mapM (Recipe.make customTypes s.type) with
    | error e =>
      rw [hvalues] at h
      cases h
    | ok values =>
      rw [hvalues] at h
      obtain rfl := Option.some.inj h
      exact Value.areExact_iff.2 (Converter.forall_mem_of_mapM_eq_ok (fun _ _ => hmake) hvalues)
  unfold makeDefault at h
  split at h
  · rename_i text rest hshape
    cases htext : Recipe.make customTypes s.type text with
    | error e =>
      rw [htext] at h
      cases h
    | ok w =>
      rw [htext] at h
      obtain rfl := Option.some.inj h
      exact hmake htext
  · cases h
  · exact hitems h

private theorem IsExact.shapes (ha : a.IsExact) (hr : r.IsExact) (h : Shapes r a b) : b.IsExact := by
  cases h with
  | reshaped t shape c hc =>
    refine ⟨fun d hd => ?_, fun _ v hv => absurd hv (Option.some_ne_none v).symm,
      fun _ v hv => absurd hv (Option.some_ne_none v).symm⟩
    rcases hc with rfl | ⟨rfl, -⟩
    · cases hd
    · exact ha.converter d hd
  | default texts =>
    exact ⟨ha.converter, fun ht v hv => isExact_of_makeDefault hr.customTypes ht hv, ha.value⟩
  | @textDefault raw value hvalue =>
    refine ⟨ha.converter, fun ht v hv => ?_, ha.value⟩
    obtain rfl := Option.some.inj hv
    exact isExact_of_decode hr ha.converter ht hvalue
  | converter recipe =>
    refine ⟨fun c hc => ?_, ha.default, ha.value⟩
    obtain rfl := Option.some.inj hc
    exact Recipe.isExact_converter hr.customTypes _ recipe
  | lifetime d => exact ⟨ha.converter, ha.default, ha.value⟩
  | expands on => exact ⟨ha.converter, ha.default, ha.value⟩
  | suffixed add =>
    unfold addSuffix
    split
    · exact ha
    · exact ⟨ha.converter, ha.default, ha.value⟩

private theorem isExact_start (key : String) : (start key).IsExact :=
  ⟨fun c hc => absurd hc (Option.some_ne_none c).symm, fun _ v hv => absurd hv (Option.some_ne_none v).symm,
    fun _ v hv => absurd hv (Option.some_ne_none v).symm⟩

theorem isExact_of_build (hr : r.IsExact) {steps : List BuildStep} (h : (build v r key steps).outcome = .ok a) :
    a.IsExact := by
  have hbuilt := build_induction (P := fun r a => r.IsExact ∧ a.IsExact) ⟨hr, isExact_start key⟩
    (fun r a b taken ha hb => ⟨ha.1.asked (asked_step v r a taken), ha.2.shapes ha.1 (shapes_of_step hb)⟩) h
  exact hbuilt.2

private theorem isExact_of_result {s : Settings} (hr : r.IsExact) (hconverter : ∀ c, s.converter = some c → c.IsExact)
    (hdefault : s.type.isExact = true → ∀ v, s.default = some v → v.isExact = true) (ht : s.type.isExact = true)
    {raw : Option String} {value : Value} (h : (result s r raw).1 = .ok (some value)) : value.isExact = true := by
  cases raw with
  | none =>
    have hor : s.default.or s.shape.absent = some value := Except.ok.inj h
    rcases Option.or_eq_some_iff.1 hor with hvalue | ⟨-, hvalue⟩
    · exact hdefault ht value hvalue
    · unfold Shape.absent at hvalue
      split at hvalue
      · cases hvalue
      · obtain rfl := Option.some.inj hvalue
        rfl
      · obtain rfl := Option.some.inj hvalue
        rfl
  | some raw =>
    cases hdecode : (decode s r raw).1 with
    | error e =>
      rw [result, hdecode] at h
      cases h
    | ok w =>
      rw [result, hdecode] at h
      obtain rfl := Option.some.inj (Except.ok.inj h)
      exact isExact_of_decode hr hconverter ht hdecode

theorem isExact_of_recomputed? (ha : a.IsExact) (hr : r.IsExact) (ht : a.settings.type.isExact = true) {value : Value}
    (h : a.recomputed? v r = some (some value)) : value.isExact = true := by
  obtain ⟨s, suffixes, m⟩ := a
  have hsuffixes := hr.asked (asked_presentSuffixes v r suffixes)
  rw [recomputed?] at h
  split at h
  · cases h
  · rename_i hkept
    unfold optionalValue at h
    rw [show kept? v s m = none from hkept] at h
    dsimp only at h
    cases htexts : (presentSuffixes v r suffixes).outcome with
    | error e =>
      rw [htexts] at h
      cases h
    | ok texts =>
      rw [htexts] at h
      dsimp only at h
      have hresult {w : Value}
          (hw : (result s (presentSuffixes v r suffixes).registry (lookup v s texts).raw).1 = .ok (some w)) :
          w.isExact = true := isExact_of_result hsuffixes ha.converter ha.default ht hw
      generalize result s (presentSuffixes v r suffixes).registry (lookup v s texts).raw = p at h hresult
      obtain ⟨_ | w, r'⟩ := p
      · cases h
      · obtain rfl := Option.some.inj h
        exact hresult rfl

private theorem IsExact.of_settings_eq (ha : a.IsExact) (hsettings : b.settings = a.settings)
    (hvalue : a.settings.type.isExact = true → ∀ v, b.memory.value = some v → v.isExact = true) : b.IsExact := by
  refine ⟨?_, ?_, ?_⟩
  · rw [hsettings]
    exact ha.converter
  · rw [hsettings]
    exact ha.default
  · rw [hsettings]
    exact hvalue

theorem IsExact.optionalValue (ha : a.IsExact) (hr : r.IsExact) (v : View) :
    (a.optionalValue v r).accessor.IsExact := by
  obtain ⟨hmemory, -, hsettings⟩ := optionalValue_eq v r a
  refine ha.of_settings_eq hsettings fun ht value hvalue => ?_
  rw [hmemory] at hvalue
  cases hrecomputed : a.recomputed? v r with
  | none =>
    rw [hrecomputed] at hvalue
    exact ha.value ht value hvalue
  | some w =>
    rw [hrecomputed] at hvalue
    obtain rfl : w = some value := hvalue
    exact isExact_of_recomputed? ha hr ht hrecomputed

theorem IsExact.rawValue (ha : a.IsExact) (v : View) (r : Registry) : (a.rawValue v r).accessor.IsExact := by
  obtain ⟨hmemory, hsettings⟩ := rawValue_eq v r a
  exact ha.of_settings_eq hsettings fun ht value hvalue => ha.value ht value (hmemory ▸ hvalue)

end LayeredConfig.Accessor
