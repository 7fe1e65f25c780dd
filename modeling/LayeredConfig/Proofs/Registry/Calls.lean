import LayeredConfig.Proofs.Registry.Discovery

/-!
# Calls on a registry

A registry starts with the built-in converters or with none, and then answers calls one after the other.  Looking for
a converter may add to what was discovered, but never to what is registered (`Asked.extends`).
-/

namespace LayeredConfig.Registry

/-- A converter that an application registers for a type. -/
structure Offer where
  type : ValueType
  converter : Converter
  priority : Int
  /-- Present for a converter that is closed with its engine. -/
  closing : Option Closing

/-- What a registry keeps of it. -/
def Offer.registration (o : Offer) : Registration := ⟨o.converter, o.priority, false, o.closing⟩

/-- A call on a registry. -/
inductive Call where
  | register (o : Offer)
  | convert (t : ValueType) (raw : Option String)
  | has (t : ValueType)

/-- What a call answers. -/
inductive Reply where
  | registered (outcome : Except ConfigError Unit)
  | converted (outcome : Except ConfigError (Option Value))
  | has (answer : Bool)

/-- What a call answers, and the registry after it. -/
def Call.run (r : Registry) : Call → Reply × Registry
  | register o =>
    match r.register o.type o.registration with
    | .ok r => (.registered (.ok ()), r)
    | .error e => (.registered (.error e), r)
  | convert t raw =>
    let p := r.convert t raw
    (.converted p.1, p.2)
  | has t =>
    let p := r.hasConverter t
    (.has p.1, p.2)

/-- The registry after several calls. -/
def after (r : Registry) (calls : List Call) : Registry := calls.foldl (fun r call => (call.run r).2) r

/-- What several calls answer. -/
def replies (r : Registry) : List Call → List Reply
  | [] => []
  | call :: rest => (call.run r).1 :: replies (call.run r).2 rest

/-- A new registry, with or without the built-in converters. -/
def initial (customTypes : List CustomType) (builtins : Bool) : Registry :=
  if builtins then standard customTypes else empty customTypes

/-- The built-in converter of a type, in a registry that has any. -/
def builtin? (builtins : Bool) (t : ValueType) : Option Registration :=
  if builtins then (Converter.builtin? t).map fun c => ⟨c, builtinPriority, true, none⟩ else none

theorem of_builtin? {builtins : Bool} {t : ValueType} {g : Registration} (h : builtin? builtins t = some g) :
    g.isBuiltin = true ∧ g.priority = builtinPriority := by
  unfold builtin? at h
  split at h
  · obtain ⟨c, -, rfl⟩ := Option.map_eq_some_iff.1 h
    exact ⟨rfl, rfl⟩
  · nomatch h

section

variable {r : Registry} {t : ValueType}

/-! ### What is registered -/

theorem active?_accept (r : Registry) (t : ValueType) (g : Registration) (u : ValueType) :
    (r.accept t g).active? u = if u = t then some g else r.active? u := lookup_put r.registered t u g

private theorem active?_addBuiltin (r : Registry) (t u : ValueType) :
    (r.addBuiltin t).active? u = if u = t then (builtin? true u).or (r.active? u) else r.active? u := by
  by_cases hu : u = t
  · subst hu
    rw [if_pos rfl, addBuiltin, builtin?, if_pos rfl]
    cases Converter.builtin? u with
    | none => rfl
    | some c => exact (active?_accept r u _ u).trans (if_pos rfl)
  · rw [if_neg hu, addBuiltin]
    split
    · rw [active?_accept, if_neg hu]
    · rfl

private theorem active?_foldl_addBuiltin (types : List ValueType) (r : Registry) (u : ValueType) :
    (types.foldl addBuiltin r).active? u = if u ∈ types then (builtin? true u).or (r.active? u) else r.active? u := by
  induction types generalizing r with
  | nil => rfl
  | cons t types ih =>
    rw [List.foldl_cons, ih, active?_addBuiltin]
    by_cases hu : u = t
    · subst hu
      rw [if_pos rfl, if_pos List.mem_cons_self, ← Option.or_assoc, Option.or_self, ite_self]
    · simp only [hu, if_false, List.mem_cons, false_or]

/-- The basic types are all that have a built-in converter. -/
theorem mem_basic_of_builtin? {u : ValueType} {g : Registration} (h : builtin? true u = some g) :
    u ∈ ValueType.basic := by
  cases u with
  | custom name => nomatch h
  | list element => nomatch h
  | whole k => cases k <;> decide
  | float f => cases f <;> decide
  | _ => decide

/-- A new registry has the built-in converters, if it has any. -/
theorem active?_initial (customTypes : List CustomType) (builtins : Bool) (t : ValueType) :
    (initial customTypes builtins).active? t = builtin? builtins t := by
  cases builtins with
  | false => rfl
  | true =>
    have hstandard := active?_foldl_addBuiltin ValueType.basic (empty customTypes) t
    have hempty : (empty customTypes).active? t = none := rfl
    rw [hempty, Option.or_none] at hstandard
    refine hstandard.trans ?_
    cases hbuiltin : builtin? true t with
    | none => exact ite_self _
    | some g => exact if_pos (mem_basic_of_builtin? hbuiltin)

end

/-! ### New registries -/

/-- What holds of an empty registry and is kept by accepting converters holds of a new registry. -/
theorem initial_induction {P : Registry → Prop} {customTypes : List CustomType} (builtins : Bool)
    (hempty : P (empty customTypes)) (haccept : ∀ r t g, P r → P (r.accept t g)) :
    P (initial customTypes builtins) := by
  cases builtins with
  | false => exact hempty
  | true =>
    show P (standard customTypes)
    exact standard_induction hempty fun r t c _ _ => haccept r t _

theorem customTypes_initial (customTypes : List CustomType) (builtins : Bool) :
    (initial customTypes builtins).customTypes = customTypes :=
  initial_induction (P := fun r => r.customTypes = customTypes) builtins rfl fun _ _ _ h => h

theorem discovered_initial (customTypes : List CustomType) (builtins : Bool) :
    (initial customTypes builtins).discovered = [] :=
  initial_induction (P := fun r => r.discovered = []) builtins rfl fun _ _ _ h => h

theorem after_concat (r : Registry) (history : List Call) (call : Call) :
    r.after (history ++ [call]) = (call.run (r.after history)).2 := List.foldl_append

end LayeredConfig.Registry
