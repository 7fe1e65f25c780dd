import LayeredConfig.Proofs.Session.Effects
import LayeredConfig.Proofs.Store.Closing

/-!
# What engines are to close

Whatever steps a session takes, the providers that an engine holds are among those that were registered with it, one
for each type, and it is closed exactly if one of the steps closed it (`Accounts.after`).
-/

namespace LayeredConfig.Session

/-- The providers that several steps register with the engine `F`. -/
def entrustedBy (F : EngineId) : Session → List Step → List (ValueType × Closing)
  | _, [] => []
  | s, taken :: rest => s.entrusted F taken ++ entrustedBy F (s.step taken).2 rest

/-- Whether one of several steps closes the engine `F`. -/
def ClosedBy (F : EngineId) : Session → List Step → Prop
  | _, [] => False
  | s, taken :: rest => s.Closes F taken ∨ ClosedBy F (s.step taken).2 rest

/-- What every session keeps while the engine `F` is given `providers`, and `closed` says whether it was closed. -/
structure Accounts (F : EngineId) (providers : List (ValueType × Closing)) (closed : Prop) (s : Session) : Prop where
  engine_lt : ∀ e, s.store.engine? F = some e → F < s.store.next
  unmade : s.store.next ≤ F → providers = [] ∧ ¬ closed
  onePerType : ∀ e, s.store.engine? F = some e → e.registry.OnePerType
  closings : ∀ e, s.store.engine? F = some e → e.registry.closings.Subperm providers
  closed : ∀ e, s.store.engine? F = some e → (e.closed = true ↔ closed)

variable {F G : EngineId} {s : Session} {taken : Step} {st : Store} {names : List (String × SourceId)}
  {providers : List (ValueType × Closing)} {closed : Prop}

private theorem Accounts.start (customTypes : List CustomType) (files : FileTree) (vars : Entries) :
    (start customTypes files vars).Accounts F [] False := by
  have hnone (e : Engine) : (Session.start customTypes files vars).store.engine? F ≠ some e := by
    simp [engine?_start]
  exact ⟨fun e he => absurd he (hnone e), fun _ => ⟨rfl, id⟩, fun e he => absurd he (hnone e),
    fun e he => absurd he (hnone e), fun e he => absurd he (hnone e)⟩

/-! ### What a step entrusts -/

private theorem providersAmong_eq (customTypes : List CustomType) (converters : List ConverterSpec) :
    providersAmong converters = Registry.providersOf (converters.map (pending customTypes)) := by
  rw [Registry.providersOf, List.filterMap_map]
  rfl

/-- An engine that is built is entrusted with the providers that it is built with. -/
private theorem entrusted_build {name : String} {sources : List String} {environment : Bool}
    {converters : List ConverterSpec} {n : Store.Noticed}
    (h : s.store.build (s.named sources) environment (converters.map (pending s.store.customTypes)) = .ok (G, n)) :
    s.entrusted F (.build name sources environment converters) = if F = G then providersAmong converters else [] := by
  have hperform : perform s (.build name sources environment converters) =
      noticed { s with engineNames := bind name G s.engineNames } n (.ok .nothing) := by
    show stepBuild s name sources environment converters = _
    have h' : s.store.build (sources.filterMap fun source => s.sourceNames.lookup source) environment
      (converters.map (pending s.store.customTypes)) = .ok (G, n) := h
    rw [stepBuild, h']
  have hresult : (s.step (.build name sources environment converters)).1.result = .ok .nothing :=
    congrArg Stepped.result hperform
  have hname : (s.step (.build name sources environment converters)).2.engineNames.lookup name = some G := by
    have hnames : (s.step (.build name sources environment converters)).2.engineNames = bind name G s.engineNames :=
      congrArg (fun p => p.session.engineNames) hperform
    rw [hnames, bind, lookup_put, if_pos rfl]
  rw [entrusted, hresult, offered, hname]
  simp only [Except.isOk, Except.toBool, if_true, Option.some.injEq, eq_comm]

/-- A registry gains what it is entrusted with, if the registration succeeds. -/
private theorem entrusted_register {name : String} (c : ConverterSpec) {e : Engine}
    (hG : s.engineNames.lookup name = some G) (he : s.store.engine? G = some e) :
    ∃ gained, s.entrusted F (.converters name (.register c)) = (if F = G then gained else []) ∧
      e.registry.Gains gained ((RegistryCall.register c).run e.registry).2 := by
  have hresult : (s.step (.converters name (.register c))).1.result =
      settled (fun a => a) ((RegistryCall.register c).run e.registry).1 := by
    show (withEngine s name fun id e => stepOfEngine s id e (.converters name (.register c))).result = _
    simp only [withEngine, hG, he]
    rfl
  rw [entrusted, hresult, offered, hG]
  cases hregister : e.registry.register (pending e.registry.customTypes c).1 (pending e.registry.customTypes c).2 with
  | error failure =>
    have hrun : (RegistryCall.register c).run e.registry = (.error failure, e.registry) := by
      rw [RegistryCall.run, hregister]
    rw [hrun]
    exact ⟨[], (ite_self _).symm, Registry.gains_of_registered rfl⟩
  | ok r =>
    have hrun : (RegistryCall.register c).run e.registry = (.ok .nothing, r) := by
      rw [RegistryCall.run, hregister]
    rw [hrun]
    refine ⟨providersAmong [c], ?_, ?_⟩
    · simp only [settled, Except.isOk, Except.toBool, if_true, Option.some.injEq, eq_comm]
    · rw [providersAmong_eq e.registry.customTypes]
      exact Registry.gains_register hregister

/-! ### One step -/

private theorem entrusts_of_leavesAlone (hentrusted : s.entrusted F taken = []) (hcloses : ¬ s.Closes F taken)
    (h : s.store.LeavesAlone F st) : s.store.Entrusts F (s.entrusted F taken) (s.Closes F taken) st := by
  rw [hentrusted, eq_false hcloses]
  exact h.entrusts

private theorem Idle.entrusts (hidle : s.Idle taken) (h : s.store.LeavesAlone F st) :
    s.store.Entrusts F (s.entrusted F taken) (s.Closes F taken) st :=
  entrusts_of_leavesAlone (hidle.entrusted F) (hidle.closes F) h

/-- Closing an engine under a name, or releasing it. -/
private theorem entrusts_close {e : Engine} (hentrusted : s.entrusted F taken = []) (he : s.store.engine? G = some e)
    (hcloses : s.Closes F taken ↔ some G = some F ∧ (s.store.engine? F).isSome) :
    s.store.Entrusts F (s.entrusted F taken) (s.Closes F taken) (s.store.close G e).2.store := by
  have hiff : s.Closes F taken ↔ F = G := by
    rw [hcloses]
    constructor
    · exact fun ⟨hG, _⟩ => (Option.some.inj hG).symm
    · rintro rfl
      exact ⟨rfl, by rw [he]; rfl⟩
  rw [hentrusted, propext hiff]
  exact Store.entrusts_close he

/-- Every step entrusts the engine with what it is said to entrust it with. -/
private theorem Accounts.entrusts (h : s.Accounts F providers closed) (heffect : Effect s taken st names) :
    s.store.Entrusts F (s.entrusted F taken) (s.Closes F taken) st := by
  cases heffect with
  | nothing hidle => exact hidle.entrusts (.refl s.store F)
  | world hidle files vars now => exact hidle.entrusts (Store.leavesAlone_of_engine rfl rfl rfl)
  | source hsource => exact (idle_of_concernsEngines rfl).entrusts (Store.leavesAlone_addSource s.store F _)
  | set hid hj => exact (idle_of_concernsEngines rfl).entrusts (Store.leavesAlone_setValue s.store F _ _ _ _)
  | remove hid hj => exact (idle_of_concernsEngines rfl).entrusts (Store.leavesAlone_removeKey s.store F _ _ _)
  | report hid hj => exact (idle_of_concernsEngines rfl).entrusts (Store.leavesAlone_report s.store F _)
  | sourceReload hid hj =>
    exact (idle_of_concernsEngines rfl).entrusts (Store.leavesAlone_reloadSource ⟨s.store, []⟩ F _)
  | build hbuild =>
    rw [entrusted_build hbuild, providersAmong_eq s.store.customTypes]
    exact Store.entrusts_build F hbuild
  | defaultEngine hdefault hbuild =>
    have hbuilt := Store.entrusts_build F hbuild
    rw [show Registry.providersOf [] = [] from rfl, ite_self] at hbuilt
    rwa [show s.entrusted F (.defaultEngine _) = [] from ite_self _]
  | registry hidle he hr => exact hidle.entrusts (Store.leavesAlone_setEngine he hr rfl)
  | register hG he =>
    obtain ⟨gained, hentrusted, hgains⟩ := entrusted_register _ hG he
    rw [hentrusted]
    refine Store.entrusts_setRegistry he (fun hFG => ?_) hgains
    subst hFG
    exact h.engine_lt _ he
  | addSources hG he =>
    exact entrusts_of_leavesAlone (ite_self _) id (Store.leavesAlone_addSources s.store F _ _)
  | externalChange hG he => exact (idle_of_concernsEngines rfl).entrusts (Store.leavesAlone_reportTo s.store F _)
  | reload hG he => exact (idle_of_concernsEngines rfl).entrusts (Store.leavesAlone_reload s.store F _ _)
  | close hG he => exact entrusts_close (ite_self _) he (by rw [Closes, hG])
  | releaseDefault hdefault he => exact entrusts_close (ite_self _) he (by rw [Closes, hdefault])

/-- An engine that is closed exists. -/
theorem isSome_of_closes (h : s.Closes F taken) : (s.store.engine? F).isSome := by
  cases taken with
  | close name => exact h.2
  | releaseDefault => exact h.2
  | _ => exact h.elim

private theorem Accounts.step (h : s.Accounts F providers closed) (taken : Step) :
    (s.step taken).2.Accounts F (providers ++ s.entrusted F taken) (closed ∨ s.Closes F taken) := by
  have hentrusts : s.store.Entrusts F (s.entrusted F taken) (s.Closes F taken) (s.step taken).2.store :=
    (h.entrusts (shows_perform s taken)).filter _
  -- What the engine had before is known, also if there was none.
  have hold (r : Registry) (c : Bool) (hr : s.store.HasRegistry F r c) :
      r.OnePerType ∧ r.closings.Subperm providers ∧ (c = true ↔ closed) := by
    rcases hr with ⟨e, he, rfl, rfl⟩ | ⟨hle, hplain, rfl⟩
    · exact ⟨h.onePerType e he, h.closings e he, h.closed e he⟩
    · refine ⟨hplain.1, ?_, by simp [(h.unmade hle).2]⟩
      rw [hplain.2]
      exact List.nil_subperm
  refine ⟨fun e he => ?_, fun hle => ?_, fun e he => ?_, fun e he => ?_, fun e he => ?_⟩
  · rcases hentrusts.engine_lt e he with hsome | hlt
    · obtain ⟨e', he'⟩ := Option.isSome_iff_exists.1 hsome
      exact Nat.lt_of_lt_of_le (h.engine_lt e' he') hentrusts.next_le
    · exact hlt
  -- An engine that is still to be made was given nothing and cannot be closed.
  · obtain ⟨hproviders, hclosed⟩ := h.unmade (Nat.le_trans hentrusts.next_le hle)
    have hnone : s.entrusted F taken = [] := by
      by_cases hne : s.entrusted F taken = []
      · exact hne
      · exact absurd (hentrusts.providers_lt hne) (Nat.not_lt_of_le hle)
    refine ⟨by rw [hproviders, hnone]; rfl, ?_⟩
    rintro (hc | hcloses)
    · exact hclosed hc
    · obtain ⟨e, he⟩ := Option.isSome_iff_exists.1 (isSome_of_closes hcloses)
      exact absurd (Nat.lt_of_lt_of_le (h.engine_lt e he) hentrusts.next_le) (Nat.not_lt_of_le hle)
  · obtain ⟨r, c, hr, hgains, -⟩ := hentrusts.engine e he
    exact hgains.onePerType (hold r c hr).1
  · obtain ⟨r, c, hr, hgains, -⟩ := hentrusts.engine e he
    exact hgains.closings.trans ((List.subperm_append_right _).2 (hold r c hr).2.1)
  · obtain ⟨r, c, hr, -, hclosed⟩ := hentrusts.engine e he
    rw [hclosed, (hold r c hr).2.2]

/-! ### Runs -/

theorem Accounts.after (h : s.Accounts F providers closed) (steps : List Step) :
    (s.after steps).Accounts F (providers ++ entrustedBy F s steps) (closed ∨ ClosedBy F s steps) := by
  induction steps generalizing s providers closed with
  | nil => simpa [Session.after, entrustedBy, ClosedBy] using h
  | cons taken rest ih =>
    have hrest := ih (h.step taken)
    rw [List.append_assoc, or_assoc] at hrest
    exact hrest

/-- What an engine holds after any steps of a new session. -/
theorem accounts_after (F : EngineId) (customTypes : List CustomType) (files : FileTree) (vars : Entries)
    (steps : List Step) :
    ((start customTypes files vars).after steps).Accounts F (entrustedBy F (start customTypes files vars) steps)
      (ClosedBy F (start customTypes files vars) steps) := by
  have hafter := (Accounts.start customTypes files vars).after (F := F) steps
  rwa [List.nil_append, false_or] at hafter

end LayeredConfig.Session
