import LayeredConfig.Engine
import LayeredConfig.Proofs.Converter.TypeNames
import LayeredConfig.Proofs.Registry.Calls
import Mathlib.Data.List.Nodup
import Mathlib.Data.List.Perm.Subperm

/-!
# Providers in a registry

A provider is a converter that is closed with its engine.  A registry holds one converter for each type, so the
providers that it closes are those of different types (`nodup_closings`), and they are the active ones
(`mem_closings`).  `Gains` accounts for them: each was registered at some time, but a provider that is passed over or
replaced leaves no trace.
-/

namespace LayeredConfig.Registry

/-- The provider that is active for a type. -/
def provider? (r : Registry) (t : ValueType) : Option Closing := (r.active? t).bind Registration.closing

/-- The providers among some registrations. -/
def providersOf (registered : List (ValueType × Registration)) : List (ValueType × Closing) :=
  registered.filterMap fun p => p.2.closing.map (p.1, ·)

/-- No type is registered twice. -/
def OnePerType (r : Registry) : Prop := (r.registered.map Prod.fst).Nodup

/-- The providers that are active, one for each type. -/
structure Active (r : Registry) (providers : List (ValueType × Closing)) : Prop where
  nodup : (providers.map Prod.fst).Nodup
  mem_iff : ∀ t c, (t, c) ∈ providers ↔ r.provider? t = some c

/-- One registry comes from another one by registering some providers, among other converters. -/
structure Gains (r : Registry) (providers : List (ValueType × Closing)) (r' : Registry) : Prop where
  onePerType : r.OnePerType → r'.OnePerType
  closings : r'.closings.Subperm (r.closings ++ providers)

variable {r r' r'' : Registry} {t : ValueType} {g : Registration} {providers providers' : List (ValueType × Closing)}

private theorem providersOf_cons (p : ValueType × Registration) (registered : List (ValueType × Registration)) :
    providersOf (p :: registered) = providersOf [p] ++ providersOf registered := by
  unfold providersOf
  rw [List.filterMap_cons, List.filterMap_cons]
  cases p.2.closing with
  | none => rfl
  | some c => rfl

/-! ### What is closed -/

private theorem providersOf_sublist (registered : List (ValueType × Registration)) :
    ((providersOf registered).map Prod.fst).Sublist (registered.map Prod.fst) := by
  unfold providersOf
  induction registered with
  | nil => exact .slnil
  | cons p l ih =>
    rw [List.filterMap_cons, List.map_cons]
    cases p.2.closing with
    | none => exact ih.cons p.1
    | some c => exact ih.cons_cons p.1

theorem nodup_closings (h : r.OnePerType) : (r.closings.map Prod.fst).Nodup :=
  h.sublist (providersOf_sublist r.registered)

theorem mem_closings (h : r.OnePerType) {c : Closing} : (t, c) ∈ r.closings ↔ r.provider? t = some c := by
  unfold OnePerType at h
  unfold closings provider? active?
  generalize r.registered = l at h
  induction l with
  | nil => simp
  | cons p l ih =>
    obtain ⟨u, g⟩ := p
    obtain ⟨hu, hl⟩ := List.nodup_cons.1 h
    by_cases ht : t = u
    · subst ht
      -- The other registrations are for other types.
      have hrest : (t, c) ∉ l.filterMap fun p => p.2.closing.map (p.1, ·) := by
        intro hmem
        obtain ⟨q, hq, heq⟩ := List.mem_filterMap.1 hmem
        obtain ⟨c', -, heq⟩ := Option.map_eq_some_iff.1 heq
        obtain ⟨rfl, -⟩ := Prod.mk.inj heq
        have hmem : q.1 ∈ l.map Prod.fst := List.mem_map_of_mem hq
        exact hu hmem
      have hself : (t == t) = true := beq_self_eq_true t
      rw [List.lookup_cons, hself, List.filterMap_cons]
      cases hg : g.closing with
      | none => simpa [hg] using hrest
      | some d => simp [hg, hrest, eq_comm]
    · have hne : (t == u) = false := by simpa using ht
      rw [List.lookup_cons, hne, List.filterMap_cons]
      refine Iff.trans ?_ (ih hl)
      cases g.closing with
      | none => rfl
      | some d => simp [ht]

/-- In whatever order they are closed, the providers of a registry are the active ones. -/
theorem active_of_perm (h : r.OnePerType) (hperm : providers.Perm r.closings) : r.Active providers :=
  ⟨(hperm.map Prod.fst).nodup_iff.2 (nodup_closings h), fun _ _ => hperm.mem_iff.trans (mem_closings h)⟩

/-- They differ at most in their order from those of the registry. -/
theorem Active.perm (h : r.Active providers) (hr : r.OnePerType) : providers.Perm r.closings := by
  have hclosings := active_of_perm hr (List.Perm.refl r.closings)
  refine (List.perm_ext_iff_of_nodup (.of_map _ h.nodup) (.of_map _ hclosings.nodup)).2 fun p => ?_
  rw [h.mem_iff, hclosings.mem_iff]

/-! ### What is registered -/

theorem gains_of_registered (h : r'.registered = r.registered) : r.Gains [] r' := by
  refine ⟨fun hr => ?_, ?_⟩
  · rwa [OnePerType, h]
  · rw [closings, h, List.append_nil]
    exact .refl _

theorem Gains.trans (h : r.Gains providers r') (h' : r'.Gains providers' r'') :
    r.Gains (providers ++ providers') r'' := by
  refine ⟨fun hr => h'.onePerType (h.onePerType hr), ?_⟩
  rw [← List.append_assoc]
  exact h'.closings.trans ((List.subperm_append_right providers').2 h.closings)

private theorem closings_accept (r : Registry) (t : ValueType) (g : Registration) :
    (r.accept t g).closings = providersOf [(t, g)] ++ providersOf (r.registered.filter fun p => p.1 ≠ t) :=
  providersOf_cons (t, g) _

private theorem gains_accept (r : Registry) (t : ValueType) (g : Registration) :
    r.Gains (providersOf [(t, g)]) (r.accept t g) := by
  refine ⟨fun hr => ?_, ?_⟩
  · refine List.nodup_cons.2 ⟨fun hmem => ?_, hr.sublist (List.filter_sublist.map _)⟩
    obtain ⟨p, hp, heq⟩ := List.mem_map.1 hmem
    simpa [heq] using (List.mem_filter.1 hp).2
  · rw [closings_accept]
    have hkept : (providersOf (r.registered.filter fun p => p.1 ≠ t)).Sublist r.closings :=
      List.filter_sublist.filterMap _
    exact List.perm_append_comm.subperm.trans (hkept.append_right _).subperm

/-- A registration that succeeds takes effect or is ignored. -/
theorem gains_register (h : r.register t g = .ok r') : r.Gains (providersOf [(t, g)]) r' := by
  have hignored : r.Gains (providersOf [(t, g)]) r := ⟨id, (List.sublist_append_left _ _).subperm⟩
  rcases register_cases h with rfl | rfl
  · exact hignored
  · exact gains_accept r t g

theorem gains_foldlM_register {pending : List Store.Pending}
    (h : pending.foldlM (fun r p => r.register p.1 p.2) r = .ok r') : r.Gains (providersOf pending) r' := by
  induction pending generalizing r with
  | nil =>
    obtain rfl := Except.ok.inj h
    exact gains_of_registered rfl
  | cons p pending ih =>
    rw [List.foldlM_cons] at h
    obtain ⟨r₁, h₁, h⟩ := bind_eq_ok.1 h
    rw [providersOf_cons]
    exact (gains_register h₁).trans (ih h)

/-! ### A new registry -/

/-- A registry with one converter for each type and no provider. -/
def Plain (r : Registry) : Prop := r.OnePerType ∧ r.closings = []

theorem plain_standard (customTypes : List CustomType) : (standard customTypes).Plain := by
  refine standard_induction ⟨List.nodup_nil, rfl⟩ fun r t c _ _ hr => ?_
  have hgains := gains_accept r t ⟨c, builtinPriority, true, none⟩
  have hclosings := hgains.closings
  rw [hr.2] at hclosings
  exact ⟨hgains.onePerType hr.1, List.subperm_nil.1 hclosings⟩

end LayeredConfig.Registry
