import LayeredConfig.Proofs.Accessor.Asking
import LayeredConfig.Session

/-!
# What a step does to the store

`Effect` lists all that a step of a session can do to its store and to the names of its sources, with what holds when
it does so (`shows_perform`).  What every run keeps need only be checked for each entry of this list.  Most steps are
`Idle`: they give engines neither sources nor providers, and close none.
-/

namespace LayeredConfig.Session

/-- The session after several steps. -/
def after (s : Session) (steps : List Step) : Session := steps.foldl (fun s taken => (s.step taken).2) s

/-- What holds of a session and is kept by every step holds after several steps. -/
theorem after_induction {P : Session → Prop} (hstep : ∀ s taken, P s → P (s.step taken).2) {s : Session} (hs : P s)
    (steps : List Step) : P (s.after steps) := by
  induction steps generalizing s with
  | nil => exact hs
  | cons taken rest ih => exact ih (hstep s taken hs)

theorem engine?_start (customTypes : List CustomType) (files : FileTree) (vars : Entries) (F : EngineId) :
    (start customTypes files vars).store.engine? F = none := rfl

/-- Engines that something holds are not collected. -/
theorem engine?_collect_eq (s : Session) (F : EngineId) :
    s.collect.store.engine? F = if s.isAlive F then s.store.engine? F else none :=
  lookup_filter_key s.store.engines s.isAlive F

/-- The sources with some names. -/
def named (s : Session) (names : List String) : List SourceId := names.filterMap fun name => s.sourceNames.lookup name

/-- When every named source exists, so do the sources with some names. -/
theorem joined_of_mem_named {s : Session} (h : ∀ p ∈ s.sourceNames, (s.store.joined? p.2).isSome)
    {names : List String} : ∀ id ∈ s.named names, (s.store.joined? id).isSome := by
  intro id hid
  obtain ⟨name, -, hname⟩ := List.mem_filterMap.1 hid
  exact h (name, id) (mem_of_lookup hname)

/-- The sources that the engine `F` is built with, if it is the one that is built. -/
def builtWith (st : Store) (F : EngineId) (ids : List SourceId) (environment : Bool) (pending : List Store.Pending) :
    List SourceId :=
  match st.build ids environment pending with
  | .ok (G, _) => if F = G then ids ++ (if environment then [st.next] else []) else []
  | .error _ => []

/-- The sources that a step gives to the engine `F`. -/
def given (s : Session) (F : EngineId) : Step → List SourceId
  | .addSources name sources =>
    if s.engineNames.lookup name = some F ∧ (s.store.engine? F).isSome then s.named sources else []
  | .build _ sources environment converters =>
    builtWith s.store F (s.named sources) environment (converters.map (pending s.store.customTypes))
  | .defaultEngine _ => if s.default.isNone then builtWith s.store F [] true [] else []
  | _ => []

/-- The providers among some converters. -/
def providersAmong (converters : List ConverterSpec) : List (ValueType × Closing) :=
  converters.filterMap fun c => c.closing.map (c.type, ·)

/-- The providers that a step would register with the engine `F`, when it is built or later. -/
def offered (s : Session) (F : EngineId) : Step → List (ValueType × Closing)
  | .build name sources environment converters =>
    if (s.step (.build name sources environment converters)).2.engineNames.lookup name = some F then
      providersAmong converters
    else []
  | .converters name (.register c) => if s.engineNames.lookup name = some F then providersAmong [c] else []
  | _ => []

/-- The providers that a step registers with the engine `F`: none if it fails. -/
def entrusted (s : Session) (F : EngineId) (taken : Step) : List (ValueType × Closing) :=
  if (s.step taken).1.result.isOk then s.offered F taken else []

/-- Whether a step closes the engine `F`, under one of its names or by releasing it as the default one. -/
def Closes (s : Session) (F : EngineId) : Step → Prop
  | .close name => s.engineNames.lookup name = some F ∧ (s.store.engine? F).isSome
  | .releaseDefault => s.default = some F ∧ (s.store.engine? F).isSome
  | _ => False

/-- A step that gives engines neither sources nor providers, and closes none. -/
structure Idle (s : Session) (taken : Step) : Prop where
  given : ∀ F, s.given F taken = []
  entrusted : ∀ F, s.entrusted F taken = []
  closes : ∀ F, ¬ s.Closes F taken

/-- What a step of a session does to its store and to the names of its sources. -/
inductive Effect (s : Session) : Step → Store → List (String × SourceId) → Prop
  | nothing {taken : Step} (h : s.Idle taken) : Effect s taken s.store s.sourceNames
  | world {taken : Step} (h : s.Idle taken) (files : FileTree) (vars : Entries) (now : Nat) :
    Effect s taken { s.store with files, vars, now } s.sourceNames
  | source {name : String} {spec : SourceSpec} {source : Source} (h : makeSource s.store spec = .ok source) :
    Effect s (.source name spec) (s.store.addSource source).2 (bind name s.store.next s.sourceNames)
  | set {name key value : String} {id : SourceId} {j : Joined} (hid : s.sourceNames.lookup name = some id)
    (hj : s.store.joined? id = some j) :
    Effect s (.set name key value) (s.store.setValue id j key value) s.sourceNames
  | remove {name key : String} {id : SourceId} {j : Joined} (hid : s.sourceNames.lookup name = some id)
    (hj : s.store.joined? id = some j) : Effect s (.remove name key) (s.store.removeKey id j key) s.sourceNames
  | report {name : String} {id : SourceId} {j : Joined} (hid : s.sourceNames.lookup name = some id)
    (hj : s.store.joined? id = some j) : Effect s (.report name) (s.store.report j) s.sourceNames
  | sourceReload {name : String} {id : SourceId} {j : Joined} (hid : s.sourceNames.lookup name = some id)
    (hj : s.store.joined? id = some j) :
    Effect s (.sourceReload name) (Store.reloadSource ⟨s.store, []⟩ id).store s.sourceNames
  | build {name : String} {sources : List String} {environment : Bool} {converters : List ConverterSpec}
    {F : EngineId} {n : Store.Noticed} (h : s.store.build (s.named sources) environment
      (converters.map (pending s.store.customTypes)) = .ok (F, n)) :
    Effect s (.build name sources environment converters) n.store s.sourceNames
  | defaultEngine {name : String} {F : EngineId} {n : Store.Noticed} (hdefault : s.default = none)
    (h : s.store.build [] true [] = .ok (F, n)) : Effect s (.defaultEngine name) n.store s.sourceNames
  /-- Reading and building accessors, and asking a registry. -/
  | registry {taken : Step} (h : s.Idle taken) {F : EngineId} {e : Engine} (he : s.store.engine? F = some e)
    {r : Registry} (hr : e.registry.Asked r) :
    Effect s taken (s.store.setEngine F { e with registry := r }) s.sourceNames
  | register {name : String} {c : ConverterSpec} {F : EngineId} {e : Engine}
    (hF : s.engineNames.lookup name = some F) (he : s.store.engine? F = some e) :
    Effect s (.converters name (.register c))
      (s.store.setEngine F { e with registry := ((RegistryCall.register c).run e.registry).2 }) s.sourceNames
  | addSources {name : String} {sources : List String} {F : EngineId} {e : Engine}
    (hF : s.engineNames.lookup name = some F) (he : s.store.engine? F = some e) :
    Effect s (.addSources name sources) (s.store.addSources F (s.named sources)).store s.sourceNames
  | externalChange {name : String} {F : EngineId} {e : Engine} (hF : s.engineNames.lookup name = some F)
    (he : s.store.engine? F = some e) : Effect s (.externalChange name) (s.store.reportTo F) s.sourceNames
  | reload {name : String} {F : EngineId} {e : Engine} (hF : s.engineNames.lookup name = some F)
    (he : s.store.engine? F = some e) : Effect s (.reload name) (s.store.reload F e).store s.sourceNames
  | close {name : String} {F : EngineId} {e : Engine} (hF : s.engineNames.lookup name = some F)
    (he : s.store.engine? F = some e) : Effect s (.close name) (s.store.close F e).2.store s.sourceNames
  | releaseDefault {F : EngineId} {e : Engine} (hdefault : s.default = some F) (he : s.store.engine? F = some e) :
    Effect s .releaseDefault (s.store.close F e).2.store s.sourceNames

variable {s : Session}

theorem mem_bind {α : Type} {name : String} {a : α} {l : List (String × α)} {p : String × α} (h : p ∈ bind name a l) :
    p = (name, a) ∨ p ∈ l := by
  rcases List.mem_cons.1 h with h | h
  · exact .inl h
  · exact .inr (List.mem_filter.1 h).1

/-! ### Idle steps -/

/-- The steps that may give engines something, or close them. -/
def Step.concernsEngines : Step → Bool
  | .build .. | .defaultEngine _ | .addSources .. | .close _ | .releaseDefault | .converters _ (.register _) => true
  | _ => false

theorem idle_of_concernsEngines {taken : Step} (h : taken.concernsEngines = false) : s.Idle taken := by
  cases taken with
  | build | defaultEngine | addSources | close | releaseDefault => nomatch h
  | converters name call =>
    cases call with
    | register c => nomatch h
    | _ => exact ⟨fun _ => rfl, fun _ => ite_self _, fun _ hcloses => hcloses⟩
  | _ => exact ⟨fun _ => rfl, fun _ => ite_self _, fun _ hcloses => hcloses⟩

private theorem entrusted_of_error {taken : Step} {failure : Failure} (h : (perform s taken).result = .error failure)
    (F : EngineId) : s.entrusted F taken = [] := by
  have hresult : (s.step taken).1.result = .error failure := h
  rw [entrusted, hresult]
  rfl

/-! ### What a step is given -/

/-- A step on a source fails, or happens to one that exists. -/
theorem withSource_cases {P : Stepped → Prop} {name : String} {f : SourceId → Joined → Stepped}
    (hfail : ∀ what, P (fail s what))
    (hfound : ∀ id j, s.sourceNames.lookup name = some id → s.store.joined? id = some j → P (f id j)) :
    P (withSource s name f) := by
  unfold withSource
  split
  · exact hfail _
  · rename_i id hid
    split
    · exact hfail _
    · rename_i j hj
      exact hfound id j hid hj

/-- A step on an engine fails, or happens to one that exists. -/
theorem withEngine_cases {P : Stepped → Prop} {name : String} {f : EngineId → Engine → Stepped}
    (hfail : ∀ what, (∀ id, s.engineNames.lookup name = some id → s.store.engine? id = none) → P (fail s what))
    (hfound : ∀ id e, s.engineNames.lookup name = some id → s.store.engine? id = some e → P (f id e)) :
    P (withEngine s name f) := by
  unfold withEngine
  split
  · rename_i hid
    exact hfail _ fun id hid' => by simp [hid] at hid'
  · rename_i id hid
    split
    · rename_i he
      refine hfail _ fun id' hid' => ?_
      obtain rfl := Option.some.inj (hid.symm.trans hid')
      exact he
    · rename_i e he
      exact hfound id e hid he

private theorem not_found_of_absent {name : String}
    (h : ∀ id, s.engineNames.lookup name = some id → s.store.engine? id = none) (F : EngineId) :
    ¬ (s.engineNames.lookup name = some F ∧ (s.store.engine? F).isSome) := by
  rintro ⟨hF, he⟩
  rw [h F hF] at he
  nomatch he

/-- A step on an engine that does not exist fails. -/
private theorem withEngine_of_absent {name : String} (f : EngineId → Engine → Stepped)
    (h : ∀ id, s.engineNames.lookup name = some id → s.store.engine? id = none) :
    withEngine s name f = fail s (.unknown "engine") := by
  unfold withEngine
  split
  · rfl
  · rename_i id hid
    rw [h id hid]

/-- A step on an accessor fails, or happens to one whose engine exists. -/
theorem withAccessor_cases {P : Stepped → Prop} {name : String} {f : Held → Engine → Stepped}
    (hfail : ∀ what, P (fail s what))
    (hfound : ∀ held e, s.accessors.lookup name = some held → s.store.engine? held.engine = some e → P (f held e)) :
    P (withAccessor s name f) := by
  unfold withAccessor
  split
  · exact hfail _
  · rename_i held hheld
    split
    · exact hfail _
    · rename_i e he
      exact hfound held e hheld he

/-- Releasing the default engine closes it, if there is one. -/
theorem stepReleaseDefault_cases {P : Stepped → Prop}
    (hnone : (∀ F, s.default = some F → s.store.engine? F = none) → P (answer { s with default := none } .nothing))
    (hfound : ∀ F e, s.default = some F → s.store.engine? F = some e →
      P (noticed { s with default := none } (s.store.close F e).2 (settled (fun _ => .nothing) (s.store.close F e).1))) :
    P (stepReleaseDefault s) := by
  unfold stepReleaseDefault
  dsimp only
  split
  · rename_i hdefault
    refine hnone fun F hF => ?_
    rw [hF, Option.bind_some] at hdefault
    exact Option.map_eq_none_iff.1 hdefault
  · rename_i F e hdefault
    obtain ⟨F', hF, hengine⟩ := Option.bind_eq_some_iff.1 hdefault
    obtain ⟨e', he, heq⟩ := Option.map_eq_some_iff.1 hengine
    obtain ⟨rfl, rfl⟩ := Prod.mk.inj heq
    exact hfound F' e' hF he

/-! ### All steps -/

/-- Whether a step has an effect of the list. -/
def Stepped.Shows (s : Session) (taken : Step) (p : Stepped) : Prop :=
  Effect s taken p.session.store p.session.sourceNames

private theorem shows_world {taken : Step} (h : s.Idle taken) (files : FileTree) (vars : Entries) (now : Nat) :
    (answer (withStore s { s.store with files, vars, now }) .nothing).Shows s taken :=
  .world h files vars now

private theorem shows_stepSource (s : Session) (name : String) (spec : SourceSpec) :
    (stepSource s name spec).Shows s (.source name spec) := by
  unfold stepSource
  split
  · exact .nothing (idle_of_concernsEngines rfl)
  · rename_i source hsource
    exact .source hsource

private theorem shows_stepBuild (s : Session) (name : String) (sources : List String) (environment : Bool)
    (converters : List ConverterSpec) :
    (stepBuild s name sources environment converters).Shows s (.build name sources environment converters) := by
  unfold stepBuild
  dsimp only
  split
  · rename_i e hbuild
    have hbuild' : s.store.build (s.named sources) environment (converters.map (pending s.store.customTypes)) =
      .error e := hbuild
    have hresult : (perform s (.build name sources environment converters)).result = .error (.config e) := by
      show (stepBuild s name sources environment converters).result = _
      rw [stepBuild, hbuild]
      rfl
    exact .nothing ⟨fun F => by rw [given, builtWith, hbuild'], entrusted_of_error hresult, fun _ hcloses => hcloses⟩
  · rename_i F n hbuild
    exact .build hbuild

private theorem shows_stepDefaultEngine (s : Session) (name : String) :
    (stepDefaultEngine s name).Shows s (.defaultEngine name) := by
  unfold stepDefaultEngine
  split
  · rename_i id hdefault
    exact .nothing ⟨fun F => by simp [given, hdefault], fun _ => ite_self _, fun _ hcloses => hcloses⟩
  · rename_i hdefault
    split
    · rename_i e hbuild
      exact .nothing ⟨fun F => by simp [given, builtWith, hbuild], fun _ => ite_self _, fun _ hcloses => hcloses⟩
    · rename_i F n hbuild
      exact .defaultEngine hdefault hbuild

private theorem shows_stepReleaseDefault (s : Session) : (stepReleaseDefault s).Shows s .releaseDefault := by
  refine stepReleaseDefault_cases (P := Stepped.Shows s _) (fun habsent => .nothing ⟨fun _ => rfl, fun _ => ite_self _,
    ?_⟩) fun _ _ hF he => .releaseDefault hF he
  rintro F ⟨hF, he⟩
  rw [habsent F hF] at he
  nomatch he

private theorem shows_stepAccessor {F : EngineId} {e : Engine} (he : s.store.engine? F = some e)
    (name engine key : String) (steps : List BuildStep) :
    (stepAccessor s name F e key steps).Shows s (.accessor name engine key steps) := by
  have hr := Accessor.asked_build (s.store.view e) e.registry key steps
  unfold stepAccessor
  dsimp only
  split
  · exact .registry (idle_of_concernsEngines rfl) he hr
  · exact .registry (idle_of_concernsEngines rfl) he hr

private theorem shows_stepRead {held : Held} {e : Engine} (he : s.store.engine? held.engine = some e) (name : String)
    (kind : ReadKind) : (stepRead s name held e kind).Shows s (.read name kind) := by
  have hvalue := Accessor.asked_optionalValue (s.store.view e) e.registry held.accessor
  have hraw := Accessor.asked_rawValue (s.store.view e) e.registry held.accessor
  cases kind with
  | value | optional => exact .registry (idle_of_concernsEngines rfl) he hvalue
  | raw => exact .registry (idle_of_concernsEngines rfl) he hraw
  | default | key | listing | none => exact .nothing (idle_of_concernsEngines rfl)

private theorem store_dropSubscription (s : Session) (name : String) : (dropSubscription s name).store = s.store := by
  unfold dropSubscription
  split <;> rfl

private theorem sourceNames_dropSubscription (s : Session) (name : String) :
    (dropSubscription s name).sourceNames = s.sourceNames := by
  unfold dropSubscription
  split <;> rfl

private theorem shows_of_same {taken : Step} {p : Stepped} (h : s.Idle taken) (hstore : p.session.store = s.store)
    (hnames : p.session.sourceNames = s.sourceNames) : p.Shows s taken := by
  unfold Stepped.Shows
  rw [hstore, hnames]
  exact .nothing h

section

variable {taken : Step} {name : String} (hidle : s.Idle taken)

include hidle

private theorem shows_withSource {f : SourceId → Joined → Stepped}
    (hfound : ∀ id j, s.sourceNames.lookup name = some id → s.store.joined? id = some j → (f id j).Shows s taken) :
    (withSource s name f).Shows s taken :=
  withSource_cases (fun _ => .nothing hidle) hfound

private theorem shows_withEngine {f : EngineId → Engine → Stepped}
    (hfound : ∀ F e, s.engineNames.lookup name = some F → s.store.engine? F = some e → (f F e).Shows s taken) :
    (withEngine s name f).Shows s taken :=
  withEngine_cases (fun _ _ => .nothing hidle) hfound

private theorem shows_withAccessor {f : Held → Engine → Stepped}
    (hfound : ∀ held e, s.accessors.lookup name = some held → s.store.engine? held.engine = some e →
      (f held e).Shows s taken) :
    (withAccessor s name f).Shows s taken :=
  withAccessor_cases (fun _ => .nothing hidle) hfound

end

/-- Whatever a step does to the store, the list has it. -/
theorem shows_perform (s : Session) (taken : Step) : (perform s taken).Shows s taken := by
  cases taken with
  | source name spec => exact shows_stepSource s name spec
  | set name key value =>
    exact shows_withSource (idle_of_concernsEngines rfl) fun _ _ hid hj => .set hid hj
  | remove name key =>
    exact shows_withSource (idle_of_concernsEngines rfl) fun _ _ hid hj => .remove hid hj
  | sourceReload name =>
    exact shows_withSource (idle_of_concernsEngines rfl) fun _ _ hid hj => .sourceReload hid hj
  | report name =>
    refine shows_withSource (idle_of_concernsEngines rfl) fun id j hid hj => ?_
    unfold stepOfSource
    dsimp only
    split
    · exact .nothing (idle_of_concernsEngines rfl)
    · exact .report hid hj
  | reporterListing name =>
    refine shows_withSource (idle_of_concernsEngines rfl) fun id j hid hj => ?_
    unfold stepOfSource
    dsimp only
    split <;> exact .nothing (idle_of_concernsEngines rfl)
  | sourceGet name _ | sourceClose name | sourceInfo name =>
    exact shows_withSource (idle_of_concernsEngines rfl) fun _ _ _ _ => .nothing (idle_of_concernsEngines rfl)
  | writeFile path node =>
    exact shows_world (idle_of_concernsEngines rfl) (s.store.files.put path node) s.store.vars s.store.now
  | deleteFile path =>
    exact shows_world (idle_of_concernsEngines rfl) (s.store.files.erase path) s.store.vars s.store.now
  | environment changes =>
    exact shows_world (idle_of_concernsEngines rfl) s.store.files (changes.foldl setVariable s.store.vars) s.store.now
  | sleep milliseconds =>
    exact shows_world (idle_of_concernsEngines rfl) s.store.files s.store.vars (s.store.now + milliseconds * 1000000)
  | build name sources environment converters => exact shows_stepBuild s name sources environment converters
  | clone name _ | rawValue name _ | expand name _ | propertyNames name | engineSources name | isClosed name
  | registerDefault name _ =>
    exact shows_withEngine (idle_of_concernsEngines rfl) fun _ _ _ _ => .nothing (idle_of_concernsEngines rfl)
  | value name t key =>
    exact shows_withEngine (idle_of_concernsEngines rfl) fun _ e _ he =>
      .registry (idle_of_concernsEngines rfl) he ((s.store.view e).asked_value e.registry t key)
  | optionalValue name t key =>
    exact shows_withEngine (idle_of_concernsEngines rfl) fun _ e _ he =>
      .registry (idle_of_concernsEngines rfl) he ((s.store.view e).asked_optionalValue e.registry t key)
  | converters name call =>
    cases call with
    | register c =>
      refine withEngine_cases (P := Stepped.Shows s _) (fun what habsent => .nothing ⟨fun _ => rfl, ?_,
        fun _ hcloses => hcloses⟩) fun _ _ hF he => .register hF he
      exact entrusted_of_error (congrArg Stepped.result (withEngine_of_absent _ habsent))
    | convert t raw =>
      exact shows_withEngine (idle_of_concernsEngines rfl) fun _ e _ he =>
        .registry (idle_of_concernsEngines rfl) he (e.registry.asked_convert t raw)
    | has t =>
      exact shows_withEngine (idle_of_concernsEngines rfl) fun _ e _ he =>
        .registry (idle_of_concernsEngines rfl) he (e.registry.asked_hasConverter t)
  | addSources name sources =>
    exact withEngine_cases (P := Stepped.Shows s _) (fun what habsent => .nothing
      ⟨fun F => if_neg (not_found_of_absent habsent F), fun _ => ite_self _, fun _ hcloses => hcloses⟩)
      fun _ _ hF he => .addSources hF he
  | externalChange name =>
    exact shows_withEngine (idle_of_concernsEngines rfl) fun _ _ hF he => .externalChange hF he
  | reload name =>
    exact shows_withEngine (idle_of_concernsEngines rfl) fun _ _ hF he => .reload hF he
  | close name =>
    exact withEngine_cases (P := Stepped.Shows s _) (fun what habsent => .nothing
      ⟨fun _ => rfl, fun _ => ite_self _, not_found_of_absent habsent⟩) fun _ _ hF he => .close hF he
  | defaultEngine name => exact shows_stepDefaultEngine s name
  | releaseDefault => exact shows_stepReleaseDefault s
  | accessor name engine key steps =>
    exact shows_withEngine (idle_of_concernsEngines rfl) fun _ _ _ he =>
      shows_stepAccessor he name engine key steps
  | read name kind =>
    exact shows_withAccessor (idle_of_concernsEngines rfl) fun _ _ _ he => shows_stepRead he name kind
  | subscribe name subscription =>
    refine shows_withAccessor (idle_of_concernsEngines rfl) fun held e _ _ => ?_
    exact shows_of_same (idle_of_concernsEngines rfl) (store_dropSubscription _ subscription)
      (sourceNames_dropSubscription _ subscription)
  | unsubscribe name =>
    exact shows_of_same (idle_of_concernsEngines rfl) (store_dropSubscription s name) (sourceNames_dropSubscription s name)
  | subscriptionListing name =>
    unfold perform
    dsimp only
    split <;> exact .nothing (idle_of_concernsEngines rfl)
  | dropEngine name => exact .nothing (idle_of_concernsEngines rfl)
  | dropAccessor name => exact .nothing (idle_of_concernsEngines rfl)

end LayeredConfig.Session
