import LayeredConfig.Proofs.Session.Effects
import LayeredConfig.Proofs.Store.Access

/-!
# Lookups do not see what is closed

Closing an engine, and releasing the default one, leaves a session that is `Alike`: engines may be closed, and those
that nothing holds any more are gone, but what a name or an accessor leads to is the same otherwise.  Lookups in such
sessions have the same outcomes and leave such sessions behind, so closing between them changes none of their answers
(`outcomesOf_lookups`).
-/

namespace LayeredConfig

/-- The engine as if it had not been closed. -/
def Engine.opened (e : Engine) : Engine := { e with closed := false }

private theorem Engine.eq_of_opened {e e' : Engine} (h : e'.opened = e.opened) : ∃ closed, e' = { e with closed } := by
  obtain ⟨sources, registry, marker, epoch, closed⟩ := e
  obtain ⟨sources', registry', marker', epoch', closed'⟩ := e'
  simp only [opened, Engine.mk.injEq, and_true] at h
  obtain ⟨rfl, rfl, rfl, rfl⟩ := h
  exact ⟨closed', rfl⟩

namespace Session

/-- The steps that look something up. -/
def Step.isLookup : Step → Bool
  | .rawValue .. | .value .. | .optionalValue .. | .expand .. | .propertyNames _ | .engineSources _ | .sourceGet ..
  | .accessor .. | .read .. | .converters _ (.convert ..) | .converters _ (.has _) => true
  | _ => false

/-- The steps that close engines. -/
def Step.isClose : Step → Bool
  | .close _ | .releaseDefault => true
  | _ => false

/-- The outcomes of some of the steps, when all of them are taken. -/
def outcomesOf (chosen : Step → Bool) : Session → List Step → List Outcome
  | _, [] => []
  | s, taken :: rest =>
    let p := s.step taken
    if chosen taken then p.1 :: outcomesOf chosen p.2 rest else outcomesOf chosen p.2 rest

/-- Whether a name or an accessor holds an engine. -/
def isHeld (s : Session) (F : EngineId) : Bool :=
  s.engineNames.any (fun p => p.2 == F) || s.accessors.any (fun p => p.2.engine == F)

/-- Sessions that differ in which engines are closed, in the default engine, and in engines that no name and no
accessor holds. -/
inductive Alike (s : Session) : Session → Prop
  | mk {engines : List (EngineId × Engine)} {default : Option EngineId}
    (h : ∀ F, s.isHeld F → (engines.lookup F).map Engine.opened = (s.store.engine? F).map Engine.opened) :
    Alike s { s with store := { s.store with engines }, default }

/-- The same answers and events, and sessions that are alike. -/
structure Stepped.Alike (p p' : Stepped) : Prop where
  result : p'.result = p.result
  resolvedKey : p'.resolvedKey = p.resolvedKey
  events : p'.events = p.events
  session : p.session.Alike p'.session

variable {s s' t t' : Session} {name : String} {F : EngineId} {e e' : Engine}

/-! ### What is held -/

private theorem isHeld_of_name (h : (name, F) ∈ s.engineNames) : s.isHeld F := by
  rw [isHeld, Bool.or_eq_true]
  exact .inl (List.any_eq_true.2 ⟨_, h, beq_self_eq_true F⟩)

private theorem isHeld_of_accessor {held : Held} (h : (name, held) ∈ s.accessors) : s.isHeld held.engine := by
  rw [isHeld, Bool.or_eq_true]
  exact .inr (List.any_eq_true.2 ⟨_, h, beq_self_eq_true held.engine⟩)

private theorem isAlive_of_isHeld (h : s.isHeld F) : s.isAlive F := by
  rw [isAlive, Bool.or_eq_true]
  exact .inl h

/-- What is held is not collected. -/
private theorem engine?_collect (h : s.isHeld F) : s.collect.store.engine? F = s.store.engine? F := by
  rw [engine?_collect_eq, if_pos (isAlive_of_isHeld h)]

/-! ### Sessions that are alike -/

private theorem Alike.refl (s : Session) : s.Alike s := .mk fun _ _ => rfl

private theorem Alike.engine? (h : s.Alike s') (hF : s.isHeld F) :
    (s'.store.engine? F).map Engine.opened = (s.store.engine? F).map Engine.opened := by
  cases h with
  | mk h => exact h F hF

private theorem Alike.sourceNames (h : s.Alike s') : s'.sourceNames = s.sourceNames := by
  cases h with
  | mk h => rfl

private theorem Alike.engineNames (h : s.Alike s') : s'.engineNames = s.engineNames := by
  cases h with
  | mk h => rfl

private theorem Alike.accessors (h : s.Alike s') : s'.accessors = s.accessors := by
  cases h with
  | mk h => rfl

private theorem Alike.joined? (h : s.Alike s') (id : SourceId) : s'.store.joined? id = s.store.joined? id := by
  cases h with
  | mk h => rfl

/-- What is seen of an engine does not say whether it is closed. -/
private theorem Alike.view (h : s.Alike s') (e : Engine) (closed : Bool) :
    s'.store.view { e with closed } = s.store.view e := by
  cases h with
  | mk h => rfl

private theorem Alike.isHeld (h : s.Alike s') (F : EngineId) : s'.isHeld F = s.isHeld F := by
  cases h with
  | mk h => rfl

/-- An engine that is held is in both sessions, or in neither of them. -/
private theorem Alike.engine_cases (h : s.Alike s') (hF : s.isHeld F) :
    (s.store.engine? F = none ∧ s'.store.engine? F = none) ∨
      ∃ e closed, s.store.engine? F = some e ∧ s'.store.engine? F = some { e with closed } := by
  have hengine := h.engine? hF
  cases he : s.store.engine? F with
  | none =>
    rw [he] at hengine
    exact .inl ⟨rfl, Option.map_eq_none_iff.1 hengine⟩
  | some e =>
    rw [he] at hengine
    obtain ⟨e', he', hopened⟩ := Option.map_eq_some_iff.1 hengine
    obtain ⟨closed, rfl⟩ := Engine.eq_of_opened hopened
    exact .inr ⟨e, closed, rfl, he'⟩

private theorem Alike.collect_left (h : s.Alike s') : s.collect.Alike s' := by
  cases h with
  | mk h =>
    refine .mk fun F hF => ?_
    have hF : s.isHeld F := hF
    rw [engine?_collect hF]
    exact h F hF

private theorem Alike.collect_right (h : s.Alike s') : s.Alike s'.collect := by
  have hcollected (F : EngineId) (hF : s.isHeld F) : s'.collect.store.engine? F = s'.store.engine? F := by
    rw [← h.isHeld] at hF
    exact engine?_collect hF
  cases h with
  | mk h => exact .mk fun F hF => (congrArg _ (hcollected F hF)).trans (h F hF)

/-- The engine gets the same registry in both sessions. -/
private theorem Alike.keepRegistry (h : s.Alike s') (F : EngineId) (e : Engine) (closed : Bool) (r : Registry) :
    (keepRegistry s F e r).Alike (keepRegistry s' F { e with closed } r) := by
  cases h with
  | mk h =>
    refine .mk fun G hG => ?_
    have hG : s.isHeld G := hG
    rw [Store.update, lookup_put]
    show _ = ((s.store.setEngine F { e with registry := r }).engine? G).map Engine.opened
    rw [Store.engine?_setEngine]
    split
    · rfl
    · exact h G hG

/-- Both sessions get the same accessors, of engines that were held before. -/
private theorem Alike.withAccessors (h : s.Alike s') {accessors : List (String × Held)}
    (hheld : ∀ p ∈ accessors, s.isHeld p.2.engine) (nextSerial : Nat) :
    { s with accessors, nextSerial }.Alike { s' with accessors, nextSerial } := by
  cases h with
  | mk h =>
    refine .mk fun F hF => h F ?_
    rcases Bool.or_eq_true_iff.1 hF with hname | haccessor
    · exact Bool.or_eq_true_iff.2 (.inl hname)
    · obtain ⟨p, hp, heq⟩ := List.any_eq_true.1 haccessor
      exact beq_iff_eq.1 heq ▸ hheld p hp

private theorem held_of_mem_bind {held : Held} (hheld : s.isHeld held.engine) :
    ∀ p ∈ bind name held s.accessors, s.isHeld p.2.engine := by
  intro p hp
  rcases mem_bind hp with rfl | hp
  · exact hheld
  · exact isHeld_of_accessor hp

/-! ### Closing -/

/-- Closing an engine, or letting go of the default one. -/
private theorem Alike.close (h : s.Alike s') (he : s'.store.engine? F = some e) (default : Option EngineId) :
    s.Alike { s' with store := (s'.store.close F e).2.store, default } := by
  unfold Store.close
  cases h with
  | mk h =>
    split
    · exact .mk h
    · refine .mk fun G hG => ?_
      rw [Store.update, lookup_put]
      split
      · rename_i hGF
        subst hGF
        have hopened := h G hG
        rw [← hopened]
        show some e.opened = _
        have he : _ = some e := he
        rw [Store.engine?] at he
        rw [he]
        rfl
      · exact h G hG

private theorem Alike.step_close (h : s.Alike s') {taken : Step} (hclose : taken.isClose) :
    s.Alike (s'.step taken).2 := by
  refine Alike.collect_right ?_
  cases taken with
  | close name =>
    refine withEngine_cases (P := fun p => s.Alike p.session) (fun _ _ => h) fun F e _ he => ?_
    exact h.close he s'.default
  | releaseDefault =>
    refine stepReleaseDefault_cases (P := fun p => s.Alike p.session) (fun _ => ?_) fun F e _ he => h.close he none
    cases h with
    | mk h => exact .mk h
  | _ => nomatch hclose

/-! ### Looking up -/

/-- A step on an engine of that name happens in both sessions, or fails in both. -/
private theorem alike_withEngine (h : s.Alike s') {f f' : EngineId → Engine → Stepped}
    (hf : ∀ F e closed, s.isHeld F → (f F e).Alike (f' F { e with closed })) :
    (withEngine s name f).Alike (withEngine s' name f') := by
  unfold withEngine
  rw [h.engineNames]
  cases hF : s.engineNames.lookup name with
  | none => exact ⟨rfl, rfl, rfl, h⟩
  | some F =>
    have hheld := isHeld_of_name (mem_of_lookup hF)
    dsimp only
    rcases h.engine_cases hheld with ⟨he, he'⟩ | ⟨e, closed, he, he'⟩
    · rw [he, he']
      exact ⟨rfl, rfl, rfl, h⟩
    · rw [he, he']
      exact hf F e closed hheld

private theorem alike_withAccessor (h : s.Alike s') {f f' : Held → Engine → Stepped}
    (hf : ∀ held e closed, s.isHeld held.engine → (f held e).Alike (f' held { e with closed })) :
    (withAccessor s name f).Alike (withAccessor s' name f') := by
  unfold withAccessor
  rw [h.accessors]
  cases hheld : s.accessors.lookup name with
  | none => exact ⟨rfl, rfl, rfl, h⟩
  | some held =>
    have hengine := isHeld_of_accessor (mem_of_lookup hheld)
    dsimp only
    rcases h.engine_cases hengine with ⟨he, he'⟩ | ⟨e, closed, he, he'⟩
    · rw [he, he']
      exact ⟨rfl, rfl, rfl, h⟩
    · rw [he, he']
      exact hf held e closed hengine

private theorem alike_withSource (h : s.Alike s') {f f' : SourceId → Joined → Stepped}
    (hf : ∀ id j, (f id j).Alike (f' id j)) : (withSource s name f).Alike (withSource s' name f') := by
  unfold withSource
  rw [h.sourceNames]
  cases s.sourceNames.lookup name with
  | none => exact ⟨rfl, rfl, rfl, h⟩
  | some id =>
    dsimp only
    rw [h.joined?]
    cases s.store.joined? id with
    | none => exact ⟨rfl, rfl, rfl, h⟩
    | some j => exact hf id j

private theorem alike_stepAccessor (h : s.Alike s') (hF : s.isHeld F) (closed : Bool) (key : String)
    (steps : List BuildStep) :
    (stepAccessor s name F e key steps).Alike (stepAccessor s' name F { e with closed } key steps) := by
  have hview := h.view e closed
  have hkept := h.keepRegistry F e closed (Accessor.build (s.store.view e) e.registry key steps).registry
  cases h with
  | mk h =>
    unfold stepAccessor
    dsimp only
    rw [hview]
    generalize Accessor.build (s.store.view e) e.registry key steps = built at hkept
    cases built.outcome with
    | error failure => exact ⟨rfl, rfl, rfl, hkept⟩
    | ok accessor => exact ⟨rfl, rfl, rfl, hkept.withAccessors (held_of_mem_bind (s := s) hF) _⟩

private theorem alike_stepRead (h : s.Alike s') {held : Held} (hheld : s.isHeld held.engine) (closed : Bool)
    (kind : ReadKind) : (stepRead s name held e kind).Alike (stepRead s' name held { e with closed } kind) := by
  have hbound (accessor : Accessor) : ∀ p ∈ bind name { held with accessor } s.accessors, s.isHeld p.2.engine :=
    held_of_mem_bind hheld
  have hread (accessor : Accessor) (r : Registry) :=
    (h.keepRegistry held.engine e closed r).withAccessors (hbound accessor) s.nextSerial
  cases h with
  | mk h =>
    cases kind with
    | value | optional | raw => exact ⟨rfl, rfl, rfl, hread _ _⟩
    | default | key | listing | none => exact ⟨rfl, rfl, rfl, .mk h⟩

private theorem alike_perform (h : s.Alike s') {taken : Step} (hlookup : taken.isLookup) :
    (perform s taken).Alike (perform s' taken) := by
  cases taken with
  | sourceGet name key =>
    refine alike_withSource h fun id j => ?_
    cases h with
    | mk h => exact ⟨rfl, rfl, rfl, .mk h⟩
  | rawValue name _ | expand name _ | propertyNames name | engineSources name =>
    refine alike_withEngine h fun F e closed _ => ?_
    cases h with
    | mk h => exact ⟨rfl, rfl, rfl, .mk h⟩
  | value name t key | optionalValue name t key =>
    refine alike_withEngine h fun F e closed _ => ?_
    have hkept (r : Registry) := h.keepRegistry F e closed r
    cases h with
    | mk h => exact ⟨rfl, rfl, rfl, hkept _⟩
  | converters name call =>
    refine alike_withEngine h fun F e closed _ => ⟨rfl, rfl, rfl, h.keepRegistry F e closed _⟩
  | accessor name engine key steps =>
    exact alike_withEngine h fun F e closed hF => alike_stepAccessor h hF closed key steps
  | read name kind =>
    exact alike_withAccessor h fun held e closed hheld => alike_stepRead h hheld closed kind
  | _ => nomatch hlookup

private theorem Alike.markerOf (h : s.Alike s') (hF : s.isHeld F) : markerOf s' F = markerOf s F := by
  unfold Session.markerOf
  rcases h.engine_cases hF with ⟨he, he'⟩ | ⟨e, closed, he, he'⟩
  · rw [he, he']
  · rw [he, he']

/-- The same engines have changed. -/
private theorem Alike.changedBetween (h : s.Alike s') (h' : t.Alike t') :
    changedBetween s' t' = changedBetween s t := by
  unfold Session.changedBetween
  rw [h.engineNames, h'.engineNames]
  congr 2
  refine List.filter_congr fun p hp => ?_
  rw [h'.markerOf (isHeld_of_name hp)]
  by_cases hold : s.engineNames.lookup p.1 = some p.2
  · rw [h.markerOf (isHeld_of_name (mem_of_lookup hold))]
  · have hold : (s.engineNames.lookup p.1 == some p.2) = false := by simpa using hold
    rw [hold, Bool.false_and, Bool.false_and]

private theorem Alike.step_lookup (h : s.Alike s') {taken : Step} (hlookup : taken.isLookup) :
    (s'.step taken).1 = (s.step taken).1 ∧ (s.step taken).2.Alike (s'.step taken).2 := by
  have hperform := alike_perform h hlookup
  have hsession := hperform.session.collect_left.collect_right
  refine ⟨?_, hsession⟩
  unfold Session.step
  dsimp only
  rw [hperform.result, hperform.resolvedKey, hperform.events, h.changedBetween hsession]

/-! ### Runs -/

private theorem Alike.outcomesOf (h : s.Alike s') {steps : List Step}
    (hsteps : ∀ taken ∈ steps, taken.isLookup ∨ taken.isClose) :
    outcomesOf Step.isLookup s' steps = s.run (steps.filter Step.isLookup) := by
  induction steps generalizing s s' with
  | nil => rfl
  | cons taken rest ih =>
    rw [List.forall_mem_cons] at hsteps
    unfold Session.outcomesOf
    dsimp only
    by_cases hlookup : taken.isLookup
    · obtain ⟨houtcome, hsession⟩ := h.step_lookup hlookup
      rw [if_pos hlookup, List.filter_cons_of_pos hlookup, Session.run, houtcome, ih hsession hsteps.2]
    · have hclose : taken.isClose := hsteps.1.resolve_left hlookup
      rw [if_neg hlookup, List.filter_cons_of_neg hlookup, ih (h.step_close hclose) hsteps.2]

/-- Whatever is closed in between, lookups have the same outcomes. -/
theorem outcomesOf_lookups (s : Session) {steps : List Step}
    (hsteps : ∀ taken ∈ steps, taken.isLookup ∨ taken.isClose) :
    outcomesOf Step.isLookup s steps = s.run (steps.filter Step.isLookup) :=
  (Alike.refl s).outcomesOf hsteps

end Session

end LayeredConfig
