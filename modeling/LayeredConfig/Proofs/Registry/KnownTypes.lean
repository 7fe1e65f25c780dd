import LayeredConfig.Proofs.Registry.Resolvability

/-!
# Types that are known by name

A registry keeps a table of the names of types beside its two tables of converters.  The table of names never falls
behind: it has the two names of each type that has a converter in one of the others, and no more (`Listed`).  Which
types these are can be told from the history of the registry, where looking for the converter of a list can make its
elements known as well (`accounted_after`).  So among types that share no name, a text names the type that it should
(`typeNames_after`).
-/

namespace LayeredConfig

/-- Types among which no name is ambiguous.  The basic types are among them, and with every list its elements. -/
structure ValueType.Universe where
  Has : ValueType → Prop
  basic : ∀ t ∈ ValueType.basic, Has t
  element : ∀ element, Has (.list element) → Has element
  apart : ∀ t u, Has t → Has u → ∀ name ∈ t.names, name ∈ u.names → t = u

/-- The types of an application whose types share no names. -/
def ValueType.Universe.ofApart {customTypes : List CustomType} (h : ValueType.NamesApart customTypes) :
    ValueType.Universe where
  Has := ValueType.IsKnown customTypes
  basic _ ht := Registry.isKnown_of_basic customTypes ht
  element _ ht := ht
  apart := h

/-- The types of an application whose types share no names with each other or with lists. -/
def ValueType.Universe.ofPlain (customTypes : List CustomType) (h : ValueType.PlainNamesApart customTypes) :
    ValueType.Universe :=
  .ofApart (ValueType.namesApart_of_plain h)

namespace Registry

/-- The types whose converters are derived when one is looked up: the type and its elements in turn, down to the first
of them that has an entry. -/
inductive Derives (entered : ValueType → Prop) : ValueType → ValueType → Prop
  | self {t : ValueType} (h : ¬ entered t) : Derives entered t t
  | element {element t : ValueType} (h : ¬ entered (.list element)) (ht : Derives entered element t) :
      Derives entered (.list element) t

/-- The type that a call is about. -/
def Call.type : Call → ValueType
  | register o => o.type
  | convert t _ => t
  | has t => t

/-- The type whose converter a call looks up, which it does not to convert an absent text. -/
def Call.sought? : Call → Option ValueType
  | register _ => none
  | convert t raw => raw.map fun _ => t
  | has t => some t

/-- Whether the converter of a type was discovered in a history, when one was looked up and found. -/
def Discovered (customTypes : List CustomType) (builtins : Bool) (history : List Call) (t : ValueType) : Prop :=
  Happened (fun before call => ∃ u, call.sought? = some u ∧
    Resolvable customTypes (HasEntry customTypes builtins before) u ∧
    Derives (HasEntry customTypes builtins before) u t) history

section

variable {customTypes : List CustomType} {builtins : Bool} {history : List Call} {r r' : Registry} {t u : ValueType}
  {entered : ValueType → Prop}

/-! ### The table of names -/

theorem settled_accept (r : Registry) (t : ValueType) (g : Registration) (u : ValueType) :
    (r.accept t g).Settled u ↔ u = t ∨ r.Settled u := by
  have hdiscovered : (r.accept t g).discovered = r.discovered := rfl
  rw [Settled, active?_accept, hdiscovered, Settled]
  by_cases hu : u = t
  · simp [hu]
  · simp [hu]

private theorem settled_discover (r : Registry) (t : ValueType) (c : Converter) (u : ValueType) :
    (r.discover t c).Settled u ↔ u = t ∨ r.Settled u := by
  have hactive : (r.discover t c).active? u = r.active? u := rfl
  rw [Settled, hactive, discover, remember, List.lookup_cons, Settled]
  by_cases hu : u = t
  · simp [hu]
  · simp [hu, beq_eq_false_iff_ne.2 hu]

/-- The table of names has the names of the types with a converter. -/
def Listed (r : Registry) : Prop := ∀ name t, (name, t) ∈ r.names ↔ r.Settled t ∧ name ∈ t.names

/-- One more type, under both its names. -/
theorem Listed.remembers (h : r.Listed) (hnames : r'.names = (t.shortName, t) :: (t.fullName, t) :: r.names)
    (hsettled : ∀ u, r'.Settled u ↔ u = t ∨ r.Settled u) : r'.Listed := by
  intro name u
  rw [hnames, List.mem_cons, List.mem_cons, Prod.mk.injEq, Prod.mk.injEq, h name u, hsettled]
  by_cases hu : u = t
  · subst hu
    have hname : name ∈ u.names ↔ name = u.shortName ∨ name = u.fullName := by simp [ValueType.names, or_comm]
    rw [hname]
    simp only [true_or, true_and, and_true]
    exact ⟨fun h => h.elim .inl fun h => h.elim .inr And.right, fun h => h.imp_right .inl⟩
  · simp [hu]

theorem listed_initial (customTypes : List CustomType) (builtins : Bool) : (initial customTypes builtins).Listed := by
  have hempty : (empty customTypes).Listed := fun name t => by simp [empty, Settled, active?]
  exact initial_induction builtins hempty fun r t g h => h.remembers rfl (settled_accept r t g)

theorem Listed.resolve (h : r.Listed) (t : ValueType) : (r.resolve t).2.Listed := by
  fun_induction Registry.resolve r t with
  | case3 element item r' hitem _ _ ih =>
    rw [hitem] at ih
    exact ih.remembers rfl (settled_discover r' _ _)
  | case4 element e r' hitem _ _ ih =>
    rwa [hitem] at ih
  | case5 => exact h.remembers rfl (settled_discover _ _ _)
  | _ => exact h

private theorem Listed.run (h : r.Listed) (call : Call) : (call.run r).2.Listed := by
  rcases Call.run_cases r call with hr | ⟨o, hr⟩ | ⟨u, hr⟩
  · rwa [hr]
  · rw [hr]
    exact h.remembers rfl (settled_accept r _ _)
  · rw [hr]
    exact h.resolve u

private theorem Listed.after (h : r.Listed) (calls : List Call) : (r.after calls).Listed := by
  induction calls generalizing r with
  | nil => exact h
  | cons call calls ih => exact ih (h.run call)

/-- Among types that share no name, a name is found for the type that has it. -/
theorem Listed.lookup_eq_some_iff (h : r.Listed) (U : ValueType.Universe) (hU : ∀ t, r.Settled t → U.Has t)
    {name : String} : r.names.lookup name = some t ↔ r.Settled t ∧ name ∈ t.names := by
  constructor
  · exact fun ht => (h name t).1 (mem_of_lookup ht)
  · rintro ⟨ht, hname⟩
    obtain ⟨u, hu⟩ : ∃ u, r.names.lookup name = some u :=
      Option.isSome_iff_exists.1 (List.lookup_isSome_iff.2 ⟨_, (h name t).2 ⟨ht, hname⟩, by simp⟩)
    obtain ⟨hsettled, hname'⟩ := (h name u).1 (mem_of_lookup hu)
    rw [hu, U.apart t u (hU t ht) (hU u hsettled) name hname hname']

/-! ### The types with a converter -/

/-- Whether the elements of all discovered lists have converters. -/
def Closed (r : Registry) : Prop := ∀ element, (r.discovered.lookup (.list element)).isSome → r.Settled element

private theorem Derives.settled (h : Derives (fun t => (r.active? t).isSome) u t) (hclosed : r.Closed)
    (hu : r.Settled u) : r.Settled t := by
  induction h with
  | self => exact hu
  | element hnone _ ih => exact ih (hclosed _ (hu.resolve_left hnone))

private theorem derives_iff (h : ¬ entered u) :
    Derives entered u t ↔ t = u ∨ ∃ element, u = .list element ∧ Derives entered element t := by
  constructor
  · intro hderives
    cases hderives with
    | self => exact .inl rfl
    | element _ hderives => exact .inr ⟨_, rfl, hderives⟩
  · rintro (rfl | ⟨element, rfl, hderives⟩)
    · exact .self h
    · exact .element h hderives

/-- What is looked up at a list is looked up at its elements, if they have no entry. -/
private theorem Derives.step {element : ValueType} (h : Derives entered u (.list element)) (hnone : ¬ entered element) :
    Derives entered u element := by
  generalize hlist : ValueType.list element = t at h
  induction h with
  | self h =>
    subst hlist
    exact .element h (.self hnone)
  | element h _ ih => exact .element h (ih hlist)

/-- A look-up that finds a converter settles the types whose converters are derived on the way. -/
private theorem settled_resolve_of_isSome (hclosed : r.Closed) (h : (r.current? u).isSome) (t : ValueType) :
    (r.resolve u).2.Settled t ↔ r.Settled t ∨ Derives (fun t => (r.active? t).isSome) u t := by
  have hsettled {u : ValueType} (hu : r.Settled u) :
      r.Settled t ↔ r.Settled t ∨ Derives (fun t => (r.active? t).isSome) u t :=
    (or_iff_left_of_imp fun hderives => hderives.settled hclosed hu).symm
  have hinactive {u : ValueType} (hactive : r.active? u = none) : ¬ (r.active? u).isSome := by simp [hactive]
  revert h
  unfold current?
  fun_induction resolve r u with
  | case1 u g hactive => exact fun _ => hsettled (.inl (by rw [hactive]; rfl))
  | case2 u c hdiscovered hactive => exact fun _ => hsettled (.inr (by rw [hdiscovered]; rfl))
  | case3 element item r' hitem hdiscovered hactive ih =>
    rw [hitem] at ih
    have helement : r'.Settled t ↔ r.Settled t ∨ Derives (fun t => (r.active? t).isSome) element t := ih rfl
    intro _
    rw [settled_discover, derives_iff (hinactive hactive), helement, or_left_comm]
    simp
  | case5 name c hcustom hdiscovered hactive =>
    intro _
    rw [settled_discover, derives_iff (hinactive hactive)]
    simp [or_comm]
  | _ => exact fun h => absurd h Bool.false_ne_true

theorem settled_resolve_iff (hclosed : r.Closed) (u t : ValueType) :
    (r.resolve u).2.Settled t ↔
      r.Settled t ∨ (r.current? u).isSome ∧ Derives (fun t => (r.active? t).isSome) u t := by
  cases h : (r.current? u).isSome with
  | true => simp [settled_resolve_of_isSome hclosed h]
  | false =>
    rw [registry_resolve_of_current?_eq_none (Option.not_isSome_iff_eq_none.1 (by simp [h]))]
    simp

theorem Closed.resolve (hclosed : r.Closed) (u : ValueType) : (r.resolve u).2.Closed := by
  intro element h
  rcases discovered_resolve r u (.list element) with hsame | ⟨hactive, hdiscovered, -, -⟩
  · exact (hclosed element (hsame ▸ h)).extends (extends_resolve r u)
  -- A list that is discovered now is derived from its elements on the way.
  · rcases (settled_resolve_iff hclosed u (.list element)).1 (.inr h) with hsettled | ⟨hcurrent, hderives⟩
    · simp [Settled, hactive, hdiscovered] at hsettled
    · by_cases helement : (r.active? element).isSome
      · exact Settled.extends (.inl helement) (extends_resolve r u)
      · exact (settled_resolve_iff hclosed u element).2 (.inr ⟨hcurrent, hderives.step helement⟩)

/-! ### Runs -/

private theorem Closed.run (hclosed : r.Closed) (call : Call) : (call.run r).2.Closed := by
  rcases Call.run_cases r call with hr | ⟨o, hr⟩ | ⟨u, hr⟩
  · rwa [hr]
  · rw [hr]
    exact fun element h => (settled_accept r _ _ _).2 (.inr (hclosed element h))
  · rw [hr]
    exact hclosed.resolve u

private theorem Closed.after (hclosed : r.Closed) (calls : List Call) : (r.after calls).Closed := by
  induction calls generalizing r with
  | nil => exact hclosed
  | cons call calls ih => exact ih (hclosed.run call)

private theorem closed_after (customTypes : List CustomType) (builtins : Bool) (history : List Call) :
    ((initial customTypes builtins).after history).Closed := by
  apply Closed.after
  intro element h
  rw [discovered_initial] at h
  nomatch h

private theorem run_of_sought {call : Call} (h : call.sought? = some u) (r : Registry) :
    (call.run r).2 = (r.resolve u).2 := by
  cases call with
  | register o => nomatch h
  | convert t raw =>
    obtain ⟨raw, rfl, rfl⟩ := Option.map_eq_some_iff.1 h
    exact registry_convert r t (some raw)
  | has t =>
    obtain rfl := Option.some.inj h
    exact registry_hasConverter r t

private theorem discovered_run_of_not_sought {call : Call} (h : call.sought? = none) (r : Registry) :
    (call.run r).2.discovered = r.discovered := by
  cases call with
  | register o =>
    rw [Call.run]
    split
    · rename_i r' hr'
      rcases register_cases hr' with rfl | rfl
      · rfl
      · rfl
    · rfl
  | convert t raw =>
    obtain rfl := Option.map_eq_none_iff.1 h
    rfl
  | has t => cases h

private theorem discovered_concat (customTypes : List CustomType) (builtins : Bool) (history : List Call) (call : Call)
    (t : ValueType) : Discovered customTypes builtins (history ++ [call]) t ↔
      Discovered customTypes builtins history t ∨ ∃ u, call.sought? = some u ∧
        Resolvable customTypes (HasEntry customTypes builtins history) u ∧
        Derives (HasEntry customTypes builtins history) u t :=
  happened_concat

/-- The types with a converter are those with an entry, and those whose converter was discovered. -/
def Accounted (customTypes : List CustomType) (builtins : Bool) (history : List Call) : Prop :=
  ∀ t, ((initial customTypes builtins).after history).Settled t ↔
    HasEntry customTypes builtins history t ∨ Discovered customTypes builtins history t

/-- A call that looks up no converter leaves the discovered ones as they are, but may bring an entry. -/
private theorem Accounted.concat_of_not_sought {call : Call} (h : Accounted customTypes builtins history)
    (hsought : call.sought? = none) : Accounted customTypes builtins (history ++ [call]) := by
  intro t
  have hdiscovered : Discovered customTypes builtins (history ++ [call]) t ↔
      Discovered customTypes builtins history t := by
    rw [discovered_concat, hsought]
    simp
  rw [Settled, isSome_active?_after, hdiscovered, after_concat, discovered_run_of_not_sought hsought]
  constructor
  · rintro (ht | ht)
    · exact .inl ht
    · exact ((h t).1 (.inr ht)).imp_left fun ht => ht.concat call
  · rintro (ht | ht)
    · exact .inl ht
    · exact ((h t).2 (.inr ht)).imp_left fun ht => ((isSome_active?_after _ _ _ t).1 ht).concat call

/-- A call that looks up a converter brings no entries, but what is derived on the way is discovered. -/
private theorem Accounted.concat_of_sought {call : Call} (h : Accounted customTypes builtins history)
    (hsought : call.sought? = some u) : Accounted customTypes builtins (history ++ [call]) := by
  intro t
  have hentry : HasEntry customTypes builtins (history ++ [call]) t ↔ HasEntry customTypes builtins history t := by
    rw [← isSome_active?_after, ← isSome_active?_after, after_concat, run_of_sought hsought,
      (extends_resolve _ u).active?]
  have hentered : (fun t => (((initial customTypes builtins).after history).active? t).isSome = true) =
      HasEntry customTypes builtins history :=
    funext fun t => propext (isSome_active?_after customTypes builtins history t)
  have hdiscovered : Discovered customTypes builtins (history ++ [call]) t ↔
      Discovered customTypes builtins history t ∨
        Resolvable customTypes (HasEntry customTypes builtins history) u ∧
          Derives (HasEntry customTypes builtins history) u t := by
    rw [discovered_concat, hsought]
    simp
  rw [after_concat, run_of_sought hsought, settled_resolve_iff (closed_after _ _ _),
    (justified_after customTypes builtins history).isSome_current?_iff, hentered, h t, hentry, hdiscovered, or_assoc]

theorem accounted_after (customTypes : List CustomType) (builtins : Bool) (history : List Call) :
    Accounted customTypes builtins history := by
  induction history using List.reverseRecOn with
  | nil =>
    intro t
    have hnone : ¬ Discovered customTypes builtins [] t := by
      rintro ⟨before, call, after, heq, -⟩
      simp at heq
    rw [Settled, isSome_active?_after, after, List.foldl_nil, discovered_initial]
    simp [hnone]
  | append_singleton history call ih =>
    cases hsought : call.sought? with
    | none => exact ih.concat_of_not_sought hsought
    | some u => exact ih.concat_of_sought hsought

end

/-! ### Answers -/

private theorem Derives.has (U : ValueType.Universe) {entered : ValueType → Prop} {t u : ValueType}
    (h : Derives entered u t) (hu : U.Has u) : U.Has t := by
  induction h with
  | self => exact hu
  | element _ _ ih => exact ih (U.element _ hu)

private theorem Call.type_of_sought {call : Call} {u : ValueType} (h : call.sought? = some u) : call.type = u := by
  cases call with
  | register o => nomatch h
  | convert t raw =>
    obtain ⟨raw, -, rfl⟩ := Option.map_eq_some_iff.1 h
    rfl
  | has t => exact Option.some.inj h

/-- Calls for types of a universe lead to no converters for others. -/
private theorem has_of_settled {customTypes : List CustomType} {builtins : Bool} {history : List Call}
    (U : ValueType.Universe) (hcalls : ∀ call ∈ history, U.Has call.type) {t : ValueType}
    (h : ((initial customTypes builtins).after history).Settled t) : U.Has t := by
  rcases (accounted_after customTypes builtins history t).1 h with
    (h | ⟨before, call, after, rfl, o, rfl, rfl, -⟩) | ⟨before, call, after, rfl, u, hsought, -, hderives⟩
  · obtain ⟨g, hg⟩ := Option.isSome_iff_exists.1 h
    cases builtins with
    | false => nomatch hg
    | true => exact U.basic t (mem_basic_of_builtin? hg)
  · exact hcalls (.register o) (by simp)
  · have hcall := hcalls call (by simp)
    rw [Call.type_of_sought hsought] at hcall
    exact hderives.has U hcall

/-- Converters of a lower priority than a built-in one do not take its place. -/
private theorem active?_after_of_lower {customTypes : List CustomType} {history : List Call} {t : ValueType}
    (hbuiltin : (builtin? true t).isSome) (h : ∀ o ∈ offers t history, o.priority < builtinPriority) :
    ((initial customTypes true).after history).active? t = builtin? true t := by
  have hnone : contenders true t history = [] := by
    rw [contenders, List.filter_eq_nil_iff]
    intro o ho
    simp [Option.isNone_eq_false_iff.2 hbuiltin, h o ho]
  rw [tracks_after customTypes true history t, expected?, hnone]
  rfl

/-- The built-in converter for names answers from the table of names. -/
private theorem run_convert_typeRef {r : Registry} (h : r.active? .typeRef = builtin? true .typeRef) (raw : String) :
    ((Call.convert .typeRef (some raw)).run r).1 = .converted (match r.names.lookup (Text.trimmed raw) with
      | some t => .ok (some (.typeRef t))
      | none => .error (.conversionFailed raw ValueType.typeRef.fullName ("unknown type '" ++ raw ++ "'"))) := by
  have hresolve : r.resolve .typeRef = (.ok .typeNames, r) := by
    rw [resolve.eq_def, h]
    rfl
  show Reply.converted (r.convert .typeRef (some raw)).1 = _
  rw [convert, hresolve]
  dsimp only
  rw [Converter.convert, Converter.run]
  cases r.names.lookup (Text.trimmed raw) with
  | none => rfl
  | some t => rfl

/-- Reading the name of a type, in a history in which no converter took the place of the built-in one for names: the
text is, but for blanks around it, the full or the short name of a type that has an entry or whose converter was
discovered, and this type is read; any other text is refused. -/
theorem typeNames_after (customTypes : List CustomType) (U : ValueType.Universe) (history : List Call)
    (hcalls : ∀ call ∈ history, U.Has call.type)
    (hkept : ∀ o ∈ offers .typeRef history, o.priority < builtinPriority) (raw : String) :
    let known := fun t => HasEntry customTypes true history t ∨ Discovered customTypes true history t
    let reply := ((Call.convert .typeRef (some raw)).run ((initial customTypes true).after history)).1
    ((∃ v, reply = .converted (.ok v)) ↔ ∃ t, known t ∧ Text.trimmed raw ∈ t.names) ∧
      ∀ t, known t → Text.trimmed raw ∈ t.names → reply = .converted (.ok (some (.typeRef t))) := by
  intro known reply
  have hlisted := (listed_initial customTypes true).after history
  have hlookup (t : ValueType) :
      ((initial customTypes true).after history).names.lookup (Text.trimmed raw) = some t ↔
        known t ∧ Text.trimmed raw ∈ t.names := by
    rw [hlisted.lookup_eq_some_iff U fun u hu => has_of_settled U hcalls hu, accounted_after customTypes true history t]
  have hreply : reply = _ := run_convert_typeRef (active?_after_of_lower rfl hkept) raw
  have hread (t : ValueType) (ht : known t) (hname : Text.trimmed raw ∈ t.names) :
      reply = .converted (.ok (some (.typeRef t))) := by
    rw [hreply, (hlookup t).2 ⟨ht, hname⟩]
  refine ⟨⟨?_, fun ⟨t, ht, hname⟩ => ⟨_, hread t ht hname⟩⟩, hread⟩
  rintro ⟨v, hv⟩
  rw [hreply] at hv
  cases hname : ((initial customTypes true).after history).names.lookup (Text.trimmed raw) with
  | none =>
    rw [hname] at hv
    nomatch hv
  | some t => exact ⟨t, (hlookup t).1 hname⟩

/-- Calls that look for lists of lists, convert nothing and offer a converter for names that is not taken. -/
def naming : List Call :=
  [.has (.list (.list .bool)), .convert (.list .text) none, .register ⟨.typeRef, .typeNames, 0, none⟩]

/-- The inner lists are known by name then. -/
theorem typeNames_after_naming :
    (∀ call ∈ naming, call.type.IsKnown []) ∧ (∀ o ∈ offers .typeRef naming, o.priority < builtinPriority) ∧
      ((Call.convert .typeRef (some " Vec<bool>\n")).run ((initial [] true).after naming)).1 =
        .converted (.ok (some (.typeRef (.list .bool)))) := by
  have hcalls : ∀ call ∈ naming, call.type.IsKnown [] := by simp [naming, Call.type, ValueType.IsKnown]
  have hkept : ∀ o ∈ offers .typeRef naming, o.priority < builtinPriority := by
    simp [naming, offers, builtinPriority]
  have hnone (element : ValueType) : ¬ HasEntry [] true [] (.list element) := by
    rw [hasEntry_iff]
    rintro (h | h)
    · cases h
    · exact h rfl
  have hdiscovered : Discovered [] true naming (.list .bool) :=
    ⟨[], _, _, rfl, .list (.list .bool), rfl, .list (.list (.entry (.inl rfl))),
      .element (hnone _) (.self (hnone _))⟩
  refine ⟨hcalls, hkept, ?_⟩
  exact (typeNames_after [] (.ofPlain [] (by decide +kernel)) naming hcalls hkept " Vec<bool>\n").2 (.list .bool)
    (.inr hdiscovered) (by decide +kernel)

end Registry

end LayeredConfig
