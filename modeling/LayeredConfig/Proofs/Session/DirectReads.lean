import LayeredConfig.Proofs.Accessor.Direct
import LayeredConfig.Proofs.Registry.Current
import LayeredConfig.Proofs.Session.Effects

/-!
# Two ways to a value

A value can be read from an engine itself, or through an accessor.  An accessor that was only told the type, and to
leave references alone, gives what the engine gives: the same value or the same error (`direct_reads`), with the same
converters left behind (`IsDirect.reading_eq`).
-/

namespace LayeredConfig

namespace Accessor

variable {key : String} {t : ValueType} {a : Accessor}

/-- Naming the key in an error comes to the same before and after the result is wrapped; an error of the registry
names no key. -/
private theorem result_direct (r : Registry) (key : String) (t : ValueType) (raw : Option String) :
    result (.direct key t .scalar) r raw =
      ((r.convert t raw).1.mapError (ConfigError.forKey key), (r.convert t raw).2) := by
  cases raw with
  | none => rfl
  | some raw =>
    show ((decode (.direct key t .scalar) r raw).1.map some, (decode (.direct key t .scalar) r raw).2) = _
    unfold decode Registry.convert Settings.direct
    dsimp only
    cases hresolve : r.resolve t with
    | mk outcome r' =>
      cases outcome with
      | error e =>
        obtain ⟨name, rfl⟩ := Registry.error_of_resolve hresolve
        rfl
      | ok c =>
        unfold Shape.decode
        dsimp only
        cases c.convert r'.names t raw with
        | error e => rfl
        | ok value => rfl

/-- A direct accessor gives what the engine gives, with the same converters left behind. -/
theorem IsDirect.reading_eq (h : a.IsDirect key t .scalar) (v : View) (r : Registry) :
    (a.optionalValue v r).outcome = (v.optionalValue r t key).1 ∧
      (a.optionalValue v r).registry = (v.optionalValue r t key).2 := by
  obtain ⟨houtcome, hregistry, -⟩ := h.reading v r
  rw [houtcome, hregistry, result_direct]
  exact ⟨rfl, rfl⟩

end Accessor

namespace Session

variable {s : Session}

/-- Reading an engine fails like reading an accessor of it if the engine is gone. -/
private theorem result_of_found {name engine : String} {held : Held} (hheld : s.accessors.lookup name = some held)
    (hengine : s.engineNames.lookup engine = some held.engine) {f : Held → Engine → Stepped}
    {g : EngineId → Engine → Stepped}
    (h : ∀ e, s.store.engine? held.engine = some e → (f held e).result = (g held.engine e).result) :
    (withAccessor s name f).result = (withEngine s engine g).result := by
  unfold withAccessor withEngine
  rw [hheld, hengine]
  dsimp only
  cases he : s.store.engine? held.engine with
  | none => rfl
  | some e => exact h e he

/-- Whatever the state of the engine is, its type, its converters and its sources: an accessor that was told the type
and to leave references alone, and was at most read since, gives the same value or the same error as the engine. -/
theorem direct_reads (key : String) (t : ValueType) :
    (∀ v r, ∃ a, Accessor.build v r key [.type t, .expands false] = ⟨.ok a, r, []⟩ ∧ a.IsDirect key t .scalar) ∧
    (∀ (a : Accessor) v r, a.IsDirect key t .scalar →
      (a.optionalValue v r).accessor.IsDirect key t .scalar ∧ (a.rawValue v r).accessor.IsDirect key t .scalar) ∧
    ∀ (s : Session) (name engine : String) (held : Held), s.accessors.lookup name = some held →
      held.accessor.IsDirect key t .scalar → s.engineNames.lookup engine = some held.engine →
      (s.step (.read name .optional)).1.result = (s.step (.optionalValue engine t key)).1.result ∧
      (s.step (.read name .value)).1.result = (s.step (.value engine t key)).1.result := by
  refine ⟨fun v r => ⟨_, rfl, .fresh, rfl⟩, fun a v r h => ⟨h.optionalValue v r, h.rawValue v r⟩, ?_⟩
  intro s name engine held hheld hdirect hengine
  constructor
  · refine result_of_found hheld hengine fun e _ => ?_
    exact congrArg (settled optionalValue) (hdirect.reading_eq (s.store.view e) e.registry).1
  · refine result_of_found hheld hengine fun e _ => ?_
    have hvalue := hdirect.value_eq (s.store.view e) e.registry
    rw [Accessor.result_direct] at hvalue
    exact congrArg (settled .value) hvalue

/-- An engine with a port that is no number, and an accessor to it that was read already. -/
def misconfigured : List Step :=
  [.source "memory" (.map "memory" 100 (Entries.ofPairs [("port", "http")])),
   .build "engine" ["memory"] false [],
   .accessor "port" "engine" "port" [.type (.whole .u16), .expands false],
   .read "port" .raw]

/-- Both say so in the same words. -/
theorem direct_reads_misconfigured :
    let s := (start [] FileTree.empty Entries.empty).after misconfigured
    (s.step (.read "port" .value)).1.result = (s.step (.value "engine" (.whole .u16) "port")).1.result := by
  obtain ⟨hbuilt, hkept, hread⟩ := direct_reads "port" (.whole .u16)
  obtain ⟨held, hheld, hdirect, hengine⟩ : ∃ held,
      ((start [] FileTree.empty Entries.empty).after misconfigured).accessors.lookup "port" = some held ∧
      held.accessor.IsDirect "port" (.whole .u16) .scalar ∧
      ((start [] FileTree.empty Entries.empty).after misconfigured).engineNames.lookup "engine" = some held.engine :=
    ⟨_, rfl, ⟨_, rfl⟩, rfl⟩
  exact (hread _ _ _ held hheld hdirect hengine).2

end Session

end LayeredConfig
