import LayeredConfig.Engine
import LayeredConfig.Converter.Recipe
import LayeredConfig.Proofs.Registry.Discovery
import LayeredConfig.SampleTypes

/-!
# Types without floating-point numbers

A value of a type that is built without floating-point numbers is the same as itself.  Converters to such types
produce such values (`Converter.IsExact`): the built-in ones, those that recipes describe and those that are
discovered, provided that the application's own converters do.  A registry of such converters has no others after it
was asked for converters, or given more of them (`Registry.IsExact`).
-/

namespace LayeredConfig

/-- Whether the values of a type are built without floating-point numbers. -/
def ValueType.isExact : ValueType → Bool
  | float _ => false
  | list element => element.isExact
  | _ => true

namespace Value

theorem areExact_iff {xs : List Value} : areExact xs = true ↔ ∀ x ∈ xs, isExact x = true := by
  induction xs with
  | nil => simp [areExact]
  | cons x xs ih => rw [areExact, Bool.and_eq_true, ih, List.forall_mem_cons]

mutual

private theorem same_trans {x y z : Value} (hx : isExact x = true) (h : same x y = true) (h' : same y z = true) :
    same x z = true := by
  cases x with
  | list xs =>
    cases y with
    | list ys =>
      cases z with
      | list zs =>
        rw [isExact] at hx
        rw [same] at h h' ⊢
        exact sameItems_trans hx h h'
      | _ => simp [same] at h'
    | _ => simp [same] at h
  | float f x => simp [isExact] at hx
  | _ =>
    cases y with
    | _ =>
      first
      | simp [same] at h; done
      | cases z with
        | _ => simp_all [same, Path.same]

private theorem sameItems_trans {xs ys zs : List Value} (hxs : areExact xs = true) (h : sameItems xs ys = true)
    (h' : sameItems ys zs = true) : sameItems xs zs = true := by
  cases xs with
  | nil =>
    cases ys with
    | nil => exact h'
    | cons y ys => simp [sameItems] at h
  | cons x xs =>
    cases ys with
    | nil => simp [sameItems] at h
    | cons y ys =>
      cases zs with
      | nil => simp [sameItems] at h'
      | cons z zs =>
        rw [areExact, Bool.and_eq_true] at hxs
        rw [sameItems, Bool.and_eq_true] at h h' ⊢
        exact ⟨same_trans hxs.1 h.1 h'.1, sameItems_trans hxs.2 h.2 h'.2⟩

end

theorem sameOptional_self {x : Option Value} (hx : ∀ v, x = some v → isExact v = true) : sameOptional x x = true := by
  cases x with
  | none => rfl
  | some v => exact same_self (hx v rfl)

theorem sameOptional_trans {x y z : Option Value} (hx : ∀ v, x = some v → isExact v = true)
    (h : sameOptional x y = true) (h' : sameOptional y z = true) : sameOptional x z = true := by
  cases x with
  | none =>
    cases y with
    | none => exact h'
    | some v => cases h
  | some v =>
    cases y with
    | none => cases h
    | some w =>
      cases z with
      | none => cases h'
      | some u => exact same_trans (hx v rfl) h h'

end Value

/-! ### Converters -/

namespace Converter

variable {names : TypeNames} {t wanted : ValueType} {c item : Converter} {raw : String} {v : Value}

/-- A converter that produces values without floating-point numbers, if its target is a type of such values. -/
def IsExact (c : Converter) : Prop :=
  c.target.isExact = true → ∀ names raw v, c.run names raw = .ok v → v.isExact = true

theorem IsExact.convert (h : c.IsExact) (hwanted : wanted.isExact = true) (hv : c.convert names wanted raw = .ok v) :
    v.isExact = true := by
  obtain ⟨rfl, hrun⟩ := settle_eq_ok.1 hv
  exact h hwanted names raw v hrun

private theorem isExact_builtin (h : builtin? t = some c) : c.IsExact := by
  intro htarget names raw v hv
  refine isExact_of_builtin? h ?_ hv
  rintro f rfl
  rw [target_of_builtin? h] at htarget
  cases htarget

theorem forall_mem_of_mapM_eq_ok {α β ε : Type} {f : α → Except ε β} {P : β → Prop} (h : ∀ a b, f a = .ok b → P b)
    {l : List α} {bs : List β} (hl : l.mapM f = .ok bs) : ∀ b ∈ bs, P b := by
  induction l generalizing bs with
  | nil =>
    obtain rfl := Except.ok.inj hl
    exact fun b hb => absurd hb List.not_mem_nil
  | cons a l ih =>
    rw [List.mapM_cons] at hl
    obtain ⟨b, hb, hl⟩ := bind_eq_ok.1 hl
    obtain ⟨rest, hrest, hl⟩ := bind_eq_ok.1 hl
    obtain rfl := Except.ok.inj hl
    exact List.forall_mem_cons.2 ⟨h a b hb, ih hrest⟩

private theorem IsExact.list (h : item.IsExact) (element : ValueType) : (Converter.list element item).IsExact := by
  intro hlist names raw v hv
  have helement : element.isExact = true := hlist
  rw [run] at hv
  cases hsplit : ListText.split raw with
  | none =>
    rw [hsplit] at hv
    cases hv
  | some tokens =>
    rw [hsplit] at hv
    dsimp only at hv
    cases hitems : tokens.mapM fun token => settle item.target element token (run names item token) with
    | error e =>
      rw [hitems] at hv
      cases hv
    | ok values =>
      rw [hitems] at hv
      obtain rfl := Except.ok.inj hv
      have hitem {token : String} {v : Value} (hv : item.convert names element token = .ok v) : v.isExact = true :=
        h.convert helement hv
      exact Value.areExact_iff.2 (forall_mem_of_mapM_eq_ok (fun _ _ => hitem) hitems)

/-- A converter to a type of the application produces no numbers. -/
private theorem isExact_of_custom {name : String} {read : String → Except Refusal Value}
    (h : ∀ raw v, read raw = .ok v → ∃ text, v = .custom name text) : (reading (.custom name) read).IsExact := by
  intro _ names raw v hv
  obtain ⟨text, rfl⟩ := h raw v hv
  rfl

end Converter

/-- A type of an application whose own converter is exact, if it has one. -/
def CustomType.IsExact (t : CustomType) : Prop := ∀ c, t.own = some c → c.IsExact

private theorem CustomType.IsExact.converter? {t : CustomType} (h : t.IsExact) {c : Converter}
    (hc : t.converter? = some c) : c.IsExact := by
  unfold CustomType.converter? at hc
  dsimp only at hc
  split at hc
  · rename_i own hown
    obtain rfl := Option.some.inj hc
    exact h own hown
  · rename_i make hown hmake
    obtain rfl := Option.some.inj hc
    refine Converter.isExact_of_custom fun raw v hv => ?_
    obtain rfl := Except.ok.inj hv
    exact ⟨_, rfl⟩
  · rename_i parse hown hmake hparse
    obtain rfl := Option.some.inj hc
    refine Converter.isExact_of_custom fun raw v hv => ?_
    split at hv
    · obtain rfl := Except.ok.inj hv
      exact ⟨_, rfl⟩
    · cases hv
  · cases hc

namespace Registry

/-- A registry of converters that are exact. -/
structure IsExact (r : Registry) : Prop where
  customTypes : ∀ t ∈ r.customTypes, t.IsExact
  registered : ∀ p ∈ r.registered, p.2.converter.IsExact
  discovered : ∀ p ∈ r.discovered, p.2.IsExact

variable {r r' : Registry} {t : ValueType} {c : Converter} {customTypes : List CustomType}

private theorem IsExact.accept (h : r.IsExact) {g : Registration} (hg : g.converter.IsExact) (t : ValueType) :
    (r.accept t g).IsExact := by
  refine ⟨h.customTypes, fun p hp => ?_, h.discovered⟩
  rcases List.mem_cons.1 hp with rfl | hp
  · exact hg
  · exact h.registered p (List.mem_filter.1 hp).1

theorem IsExact.register (h : r.IsExact) {g : Registration} (hg : g.converter.IsExact)
    (hr : r.register t g = .ok r') : r'.IsExact := by
  rcases register_cases hr with rfl | rfl
  · exact h
  · exact h.accept hg t

private theorem IsExact.discover (h : r.IsExact) (hc : c.IsExact) (t : ValueType) : (r.discover t c).IsExact :=
  ⟨h.customTypes, h.registered, List.forall_mem_cons.2 ⟨hc, h.discovered⟩⟩

/-- What is found for a type is exact, and so is what is kept of it. -/
theorem IsExact.resolve (h : r.IsExact) (t : ValueType) :
    (∀ c, (r.resolve t).1 = .ok c → c.IsExact) ∧ (r.resolve t).2.IsExact := by
  fun_induction Registry.resolve r t with
  | case1 t g hactive =>
    refine ⟨fun c hc => ?_, h⟩
    obtain rfl := Except.ok.inj hc
    exact h.registered _ (mem_of_lookup hactive)
  | case2 t c hdiscovered hactive =>
    refine ⟨fun d hd => ?_, h⟩
    obtain rfl := Except.ok.inj hd
    exact h.discovered _ (mem_of_lookup hdiscovered)
  | case3 element item r' hitem hdiscovered hactive ih =>
    rw [hitem] at ih
    obtain ⟨hfound, hkept⟩ := ih
    have hlist := (hfound item rfl).list element
    refine ⟨fun c hc => ?_, hkept.discover hlist _⟩
    obtain rfl := Except.ok.inj hc
    exact hlist
  | case4 element e r' hitem hdiscovered hactive ih =>
    rw [hitem] at ih
    exact ⟨fun c hc => absurd hc (by simp), ih.2⟩
  | case5 name c hcustom hdiscovered hactive =>
    obtain ⟨t, ht, hc⟩ := Option.bind_eq_some_iff.1 hcustom
    have hexact := (h.customTypes t (List.mem_of_find?_eq_some ht)).converter? hc
    refine ⟨fun d hd => ?_, h.discover hexact _⟩
    obtain rfl := Except.ok.inj hd
    exact hexact
  | case6 | case7 => exact ⟨fun c hc => absurd hc (by simp), h⟩

theorem IsExact.asked (h : r.IsExact) (hasked : r.Asked r') : r'.IsExact := by
  induction hasked with
  | refl => exact h
  | resolve _ t ih => exact (ih.resolve t).2

theorem IsExact.standard (h : ∀ t ∈ customTypes, t.IsExact) : (standard customTypes).IsExact :=
  standard_induction ⟨h, fun _ hp => absurd hp List.not_mem_nil, fun _ hp => absurd hp List.not_mem_nil⟩
    fun _ t _ _ hc hr => hr.accept (Converter.isExact_builtin hc) t

private theorem IsExact.convert (h : r.IsExact) (ht : t.isExact = true) {raw : Option String} {v : Value}
    (hv : (r.convert t raw).1 = .ok (some v)) : v.isExact = true := by
  cases raw with
  | none => cases hv
  | some raw =>
    have hresolve := (h.resolve t).1
    unfold Registry.convert at hv
    dsimp only at hv
    generalize r.resolve t = p at hv hresolve
    obtain ⟨e | c, r'⟩ := p
    · cases hv
    · dsimp only at hv
      cases hc : c.convert r'.names t raw with
      | error e =>
        rw [hc] at hv
        cases hv
      | ok w =>
        rw [hc] at hv
        obtain rfl := Option.some.inj (Except.ok.inj hv)
        exact (hresolve c rfl).convert ht hc

end Registry

/-! ### Recipes -/

namespace Recipe

variable {customTypes : List CustomType} {t : ValueType} {v : Value}

theorem isExact_of_make (h : ∀ t ∈ customTypes, t.IsExact) (ht : t.isExact = true) {text : String}
    (hv : make customTypes t text = .ok v) : v.isExact = true := by
  unfold make at hv
  split at hv
  · obtain rfl := Except.ok.inj hv
    rfl
  · split at hv
    · rename_i w r hw
      obtain rfl := Except.ok.inj hv
      exact (Registry.IsExact.standard h).convert ht (congrArg Prod.fst hw)
    · cases hv
    · cases hv

/-- Every recipe describes an exact converter: all its values are made of texts. -/
theorem isExact_converter (h : ∀ t ∈ customTypes, t.IsExact) (t : ValueType) (recipe : Recipe) :
    (recipe.converter customTypes t).IsExact := by
  intro ht names raw v hv
  have hmake {text : String} : make customTypes t text = .ok v → v.isExact = true := isExact_of_make h ht
  cases recipe with
  | refuse reason => cases hv
  | dangling => cases hv
  | strip beginning =>
    rw [converter, Converter.run, read] at hv
    split at hv
    · exact hmake hv
    · cases hv
  | _ => exact hmake hv

end Recipe

end LayeredConfig
