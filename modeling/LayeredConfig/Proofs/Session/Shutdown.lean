import LayeredConfig.Proofs.Session.Entrusting
import LayeredConfig.Proofs.Session.Lookups
import LayeredConfig.Proofs.Session.Merging

/-!
# Shutting an engine down

An engine is closed once, under whatever name or as the default engine.  The first time all that it holds is closed,
each of its active providers and then each of its sources in their order, whichever of them fail, and all failures are
reported together.  From then on closing it does nothing, and no lookup can tell (`shutdown_after`).
-/

namespace LayeredConfig

namespace Session

/-- What is closed with an engine. -/
inductive Resource where
  | provider (t : ValueType) (closing : Closing)
  | source (id : SourceId) (src : Source)

namespace Resource

/-- How closing it fails, if it does. -/
def failure? : Resource → Option CloseFailure
  | .provider t closing => closing.failure.map fun message => ⟨"converter for " ++ t.fullName, message⟩
  | .source _ src => src.closeFailure?.map fun message => ⟨"source " ++ src.name, message⟩

/-- What is seen of closing it: only the sources of the application tell. -/
def attempt (s : Session) : Resource → List Event
  | .provider t _ => [.converterClosed t]
  | .source id src => if Store.isScript src then [.closed (origin s id)] else []

end Resource

/-- Providers and then sources are closed, whichever of them fail, and all failures are reported together. -/
structure Outcome.ClosesAll (o : Outcome) (s : Session) (providers sources : List Resource) : Prop where
  attempts : o.events = (providers ++ sources).flatMap (Resource.attempt s)
  result_ok_iff : o.result = .ok .nothing ↔ ∀ resource ∈ providers ++ sources, resource.failure? = none
  result_error : o.result ≠ .ok .nothing → ∃ failures, failures.Perm (providers.filterMap Resource.failure?) ∧
    o.result = .error (.config (.shutdown (failures ++ sources.filterMap Resource.failure?)))
  changed : o.changed = []

/-- How the engine `F` is closed, which was given the sources `added`; `closed` says whether it has been closed
before. -/
structure Shutdown (s : Session) (F : EngineId) (added : List (SourceId × Rank)) (closed : Prop) : Prop where
  first : ∀ e taken, s.store.engine? F = some e → s.Closes F taken → ¬ closed →
    Merged (s.store.sourcesOf e) added ∧ ∃ providers, e.registry.Active providers ∧
      (s.step taken).1.ClosesAll s (providers.map fun p => .provider p.1 p.2)
        ((s.store.sourcesOf e).map fun p => .source p.1 p.2)
  later : ∀ taken, s.Closes F taken → closed →
    (s.step taken).1 = ⟨.ok .nothing, none, [], []⟩ ∧ s.store.Untouched (s.step taken).2.store
  lookups : ∀ further, (∀ taken ∈ further, taken.isLookup ∨ taken.isClose) →
    outcomesOf Step.isLookup s further = s.run (further.filter Step.isLookup)

variable {s t : Session} {F : EngineId} {e : Engine} {taken : Step}

/-! ### A step that closes -/

/-- Engines that stay as they are see no change. -/
private theorem changedBetween_eq_nil (h : ∀ F e', t.store.engine? F = some e' → ∃ e, s.store.engine? F = some e ∧
    e'.marker = e.marker) : changedBetween s t = [] := by
  have hmarker (F : EngineId) : ¬ markerOf s F < markerOf t F := by
    cases he' : t.store.engine? F with
    | none => simp [markerOf, he']
    | some e' =>
      obtain ⟨e, he, hmarker⟩ := h F e' he'
      simp [markerOf, he', he, hmarker]
  have hnone : (t.engineNames.filter fun p => s.engineNames.lookup p.1 == some p.2 &&
      decide (markerOf s p.2 < markerOf t p.2)) = [] := by
    refine List.filter_eq_nil_iff.2 fun p _ => ?_
    rw [decide_eq_false (hmarker p.2), Bool.and_false]
    exact Bool.false_ne_true
  rw [changedBetween, hnone]
  rfl

private theorem perform_of_closes (he : s.store.engine? F = some e) (h : s.Closes F taken) :
    (perform s taken).result = settled (fun _ => .nothing) (s.store.close F e).1 ∧
      (perform s taken).resolvedKey = none ∧ (perform s taken).events = events s (s.store.close F e).2.notices ∧
      (perform s taken).session.store = (s.store.close F e).2.store := by
  cases taken with
  | close name =>
    have hperform : perform s (.close name) = stepOfEngine s F e (.close name) := by
      show withEngine s name _ = _
      simp only [withEngine, h.1, he]
    rw [hperform]
    exact ⟨rfl, rfl, rfl, rfl⟩
  | releaseDefault =>
    have hdefault : (s.default.bind fun id => (s.store.engine? id).map (id, ·)) = some (F, e) := by
      rw [h.1, Option.bind_some, he, Option.map_some]
    have hperform : perform s .releaseDefault = noticed { s with default := none } (s.store.close F e).2
        (settled (fun _ => .nothing) (s.store.close F e).1) := by
      show stepReleaseDefault s = _
      simp only [stepReleaseDefault, hdefault]
    rw [hperform]
    exact ⟨rfl, rfl, rfl, rfl⟩
  | _ => exact h.elim

private theorem events_converterClosed (s : Session) (providers : List (ValueType × Closing)) :
    events s (providers.map fun p => .converterClosed p.1) =
      (providers.map fun p => Resource.provider p.1 p.2).flatMap (Resource.attempt s) := by
  rw [events, List.map_map, List.flatMap_map, List.map_eq_flatMap]
  rfl

private theorem events_closeNotices (s : Session) (sources : List (SourceId × Source)) :
    events s (Store.closeNotices sources) =
      (sources.map fun p => Resource.source p.1 p.2).flatMap (Resource.attempt s) := by
  unfold events Store.closeNotices
  induction sources with
  | nil => rfl
  | cons p sources ih =>
    rw [List.filterMap_cons, List.map_cons, List.flatMap_cons, ← ih, Resource.attempt]
    cases Store.isScript p.2 with
    | false => rfl
    | true => rfl

/-! ### The first time -/

private theorem converterFailures_perm (providers : List (ValueType × Closing)) :
    (Store.converterFailures providers).Perm
      ((providers.map fun p => Resource.provider p.1 p.2).filterMap Resource.failure?) := by
  rw [List.filterMap_map]
  exact List.mergeSort_perm _ _

private theorem sourceFailures_eq (sources : List (SourceId × Source)) :
    Store.sourceFailures sources =
      (sources.map fun p => Resource.source p.1 p.2).filterMap Resource.failure? := by
  rw [List.filterMap_map]
  rfl

private theorem failures_eq_nil_iff (providers : List (ValueType × Closing)) (sources : List (SourceId × Source)) :
    Store.converterFailures providers ++ Store.sourceFailures sources = [] ↔
      ∀ resource ∈ (providers.map fun p => .provider p.1 p.2) ++ sources.map fun p => .source p.1 p.2,
        Resource.failure? resource = none := by
  have hperm := converterFailures_perm providers
  have hproviders : Store.converterFailures providers = [] ↔
      (providers.map fun p => Resource.provider p.1 p.2).filterMap Resource.failure? = [] := by
    rw [← List.length_eq_zero_iff, hperm.length_eq, List.length_eq_zero_iff]
  rw [List.append_eq_nil_iff, hproviders, sourceFailures_eq, List.filterMap_eq_nil_iff, List.filterMap_eq_nil_iff,
    ← List.forall_mem_append]

private theorem settled_eq_ok_iff (failures : List CloseFailure) :
    settled (fun _ => .nothing) (if failures.isEmpty then .ok () else .error (.shutdown failures)) = .ok .nothing ↔
      failures = [] := by
  cases failures with
  | nil => exact ⟨fun _ => rfl, fun _ => rfl⟩
  | cons failure failures => exact ⟨nofun, nofun⟩

theorem closesAll_of_open (he : s.store.engine? F = some e) (hcloses : s.Closes F taken) (hopen : e.closed = false) :
    (s.step taken).1.ClosesAll s
      ((e.registry.closings.mergeSort fun a b => a.1.label ≤ b.1.label).map fun p => .provider p.1 p.2)
      ((s.store.sourcesOf e).map fun p => .source p.1 p.2) := by
  obtain ⟨hresult, -, hevents, hstore⟩ := perform_of_closes he hcloses
  have hclose := Store.close_of_open s.store F hopen
  dsimp only at hclose
  rw [hclose] at hresult hevents hstore
  generalize e.registry.closings.mergeSort (fun a b => a.1.label ≤ b.1.label) = providers at hresult hevents hstore ⊢
  have hresult : (s.step taken).1.result = _ := hresult
  refine ⟨?_, ?_, fun hne => ⟨Store.converterFailures providers, converterFailures_perm providers, ?_⟩, ?_⟩
  · rw [List.flatMap_append, ← events_converterClosed, ← events_closeNotices]
    exact hevents.trans List.map_append
  · rw [hresult, ← failures_eq_nil_iff]
    exact settled_eq_ok_iff _
  · rw [hresult] at hne ⊢
    rw [← sourceFailures_eq, if_neg fun hempty => hne ?_]
    · rfl
    · rw [if_pos hempty]
      rfl
  -- The marker of the engine stays as it is.
  · refine changedBetween_eq_nil fun G e' he' => ?_
    have he' := Store.engine?_of_filter _ he'
    rw [hstore, Store.engine?_setEngine] at he'
    split at he'
    · rename_i hGF
      obtain rfl := Option.some.inj he'
      exact ⟨e, hGF ▸ he, rfl⟩
    · exact ⟨e', he', rfl⟩

/-! ### Afterwards -/

private theorem untouched_of_closed (he : s.store.engine? F = some e) (hcloses : s.Closes F taken)
    (hclosed : e.closed = true) :
    (s.step taken).1 = ⟨.ok .nothing, none, [], []⟩ ∧ s.store.Untouched (s.step taken).2.store := by
  obtain ⟨hresult, hkey, hevents, hstore⟩ := perform_of_closes he hcloses
  have hclose : s.store.close F e = (.ok (), ⟨s.store, []⟩) := if_pos hclosed
  rw [hclose] at hresult hevents hstore
  have hkept (G : EngineId) (e' : Engine) (he' : (s.step taken).2.store.engine? G = some e') :
      s.store.engine? G = some e' := by
    have he' := Store.engine?_of_filter _ he'
    rwa [hstore] at he'
  have hchanged : changedBetween s (s.step taken).2 = [] :=
    changedBetween_eq_nil fun G e' he' => ⟨e', hkept G e' he', rfl⟩
  have hsources : (s.step taken).2.store.sources = s.store.sources := by
    show (perform s taken).session.store.sources = _
    rw [hstore]
  refine ⟨?_, hsources, hkept⟩
  show Outcome.mk (perform s taken).result (perform s taken).resolvedKey (perform s taken).events
    (changedBetween s (s.step taken).2) = _
  rw [hresult, hkey, hevents, hchanged]
  rfl

/-- Whatever steps a session takes, closing an engine closes all that it holds, once. -/
theorem shutdown_after (customTypes : List CustomType) (files : FileTree) (vars : Entries) (steps : List Step)
    (F : EngineId) :
    ((start customTypes files vars).after steps).Shutdown F (gathered F (start customTypes files vars) steps)
      (ClosedBy F (start customTypes files vars) steps) := by
  have haccounts := accounts_after F customTypes files vars steps
  have hholds := (Holds.start (F := F) customTypes files vars).after steps
  rw [List.nil_append] at hholds
  refine ⟨fun e taken he hcloses hopen => ⟨hholds.merged he, _, ?_, closesAll_of_open he hcloses ?_⟩,
    fun taken hcloses hclosed => ?_, fun further => outcomesOf_lookups _⟩
  · exact Registry.active_of_perm (haccounts.onePerType e he) (List.mergeSort_perm _ _)
  · simpa [hopen] using haccounts.closed e he
  · obtain ⟨e, he⟩ := Option.isSome_iff_exists.1 (isSome_of_closes hcloses)
    exact untouched_of_closed he hcloses ((haccounts.closed e he).2 hclosed)

/-- If one of the providers fails, its failure is reported before those of the sources. -/
private theorem Outcome.ClosesAll.result_eq {o : Outcome} {providers sources : List Resource} {failure : CloseFailure}
    {failures : List CloseFailure} (h : o.ClosesAll s providers sources)
    (hproviders : (providers.filterMap Resource.failure?).Perm [failure])
    (hsources : sources.filterMap Resource.failure? = failures) :
    o.result = .error (.config (.shutdown (failure :: failures))) := by
  have hne : o.result ≠ .ok .nothing := by
    rw [Ne, h.result_ok_iff, ← List.filterMap_eq_nil_iff, List.filterMap_append, List.append_eq_nil_iff]
    rintro ⟨hnone, -⟩
    rw [hnone] at hproviders
    exact List.cons_ne_nil _ _ (List.nil_perm.1 hproviders)
  obtain ⟨reported, hperm, hresult⟩ := h.result_error hne
  obtain rfl := List.perm_singleton.1 (hperm.trans hproviders)
  rw [hresult, hsources]
  rfl

/-- An engine holds a provider and a source that fail to close, the source twice, and others that do not fail.  It is
asked for a value and has two names. -/
def pooled : List Step :=
  [.source "pool" (.script "pool" 200 (Entries.ofPairs [("key", "pooled")]) ⟨false, some "lock held", []⟩),
   .source "plain" (.script "plain" 100 Entries.empty ⟨false, none, []⟩),
   .build "engine" ["pool", "plain", "pool"] false
     [⟨.text, .upper, 100, some ⟨some "pool poisoned"⟩⟩, ⟨.bool, .upper, 100, some ⟨none⟩⟩],
   .clone "engine" "copy",
   .rawValue "engine" "key"]

/-- It is closed under one name: the provider that fails is reported, and the source that fails as often as the engine
has it.  Then it is closed again under the other name, and nothing happens. -/
theorem shutdown_after_pooled :
    let s := (start [] FileTree.empty Entries.empty).after pooled
    (∃ e, s.store.engine? 2 = some e ∧ ∃ providers, e.registry.Active providers ∧
        (s.step (.close "copy")).1.ClosesAll s (providers.map fun p => .provider p.1 p.2)
          ((s.store.sourcesOf e).map fun p => .source p.1 p.2)) ∧
      (s.step (.close "copy")).1.result = .error (.config (.shutdown
        [⟨"converter for alloc::string::String", "pool poisoned"⟩, ⟨"source pool", "lock held"⟩,
          ⟨"source pool", "lock held"⟩])) ∧
      (((start [] FileTree.empty Entries.empty).after (pooled ++ [.close "copy"])).step (.close "engine")).1 =
        ⟨.ok .nothing, none, [], []⟩ := by
  intro s
  have hopen : ¬ ClosedBy 2 (start [] FileTree.empty Entries.empty) pooled := by
    rintro (h | h | h | h | h | h) <;> exact h
  have hclosed : ClosedBy 2 (start [] FileTree.empty Entries.empty) (pooled ++ [.close "copy"]) :=
    .inr (.inr (.inr (.inr (.inr (.inl ⟨rfl, rfl⟩)))))
  obtain ⟨e, he⟩ : ∃ e, s.store.engine? 2 = some e := ⟨_, rfl⟩
  obtain ⟨-, providers, hactive, hfirst⟩ :=
    (shutdown_after [] FileTree.empty Entries.empty pooled 2).first e (.close "copy") he ⟨rfl, rfl⟩ hopen
  have hlater := (shutdown_after [] FileTree.empty Entries.empty (pooled ++ [.close "copy"]) 2).later (.close "engine")
    ⟨rfl, rfl⟩ hclosed
  -- The order of the sources does not show in the failures, since one of them alone fails.
  have hgathered : (gathered 2 (start [] FileTree.empty Entries.empty) pooled).map Prod.fst = [0, 1, 0] := by
    decide +kernel
  have hids := ((Holds.start [] FileTree.empty Entries.empty).after pooled).perm e he
  rw [List.nil_append, hgathered] at hids
  have hfailures : (([0, 1, 0].filterMap fun id => (s.store.joined? id).map fun j => (id, j.source)).map
      fun p => Resource.source p.1 p.2).filterMap Resource.failure? =
        List.replicate 2 ⟨"source pool", "lock held"⟩ := by
    decide +kernel
  have hsources : ((s.store.sourcesOf e).map fun p => Resource.source p.1 p.2).filterMap Resource.failure? =
      List.replicate 2 ⟨"source pool", "lock held"⟩ := by
    rw [← List.perm_replicate, ← hfailures]
    exact ((hids.filterMap _).map _).filterMap _
  have hclosings : ((s.store.engine? 2).map fun e =>
      (e.registry.closings.map fun p => Resource.provider p.1 p.2).filterMap Resource.failure?) =
        some [⟨"converter for alloc::string::String", "pool poisoned"⟩] := by
    decide +kernel
  rw [he, Option.map_some, Option.some.injEq] at hclosings
  have hproviders := ((hactive.perm ((accounts_after 2 [] FileTree.empty Entries.empty pooled).onePerType e he)).map
    fun p => Resource.provider p.1 p.2).filterMap Resource.failure?
  rw [hclosings] at hproviders
  exact ⟨⟨e, he, providers, hactive, hfirst⟩, hfirst.result_eq hproviders hsources, hlater.1⟩

end Session

end LayeredConfig
