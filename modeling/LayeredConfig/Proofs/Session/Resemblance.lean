import LayeredConfig.Proofs.Accessor.Likeness
import LayeredConfig.Proofs.Session.Notifying
import LayeredConfig.Proofs.Store.Resemblance

/-!
# Sessions that one accessor does not tell apart

Two sessions may differ in what the engine of an accessor has discovered, as far as the accessor does not notice
(`Resembles`).  Then every step does the same to both and leaves such sessions behind (`resembles_perform`), and a read
of the accessor has the same answer in both (`resembles_perform_self`).
-/

namespace LayeredConfig.Session

open Accessor (Likeness IsLiteral)

/-- An accessor that is in both sessions, with what it remembers related, or in neither of them. -/
inductive Held.Resembles (P : Held → Accessor → Prop) : Option Held → Option Held → Prop
  | absent : Resembles P none none
  | present {held : Held} {a : Accessor} (h : P held a) : Resembles P (some held) (some { held with accessor := a })

variable {settings : Accessor.Settings} {L L' : Likeness settings} {name : String} {F : EngineId} {ι : Type}
  {K : ι → Likeness settings} {i : ι}

/-- The engine `F` has registries that count as the same; those of other engines do not matter. -/
def RegistriesOf (L : Likeness settings) (F G : EngineId) (r r' : Registry) : Prop := G = F → L.registry r r'

/-- The accessor `name` is the same; the others count as the same if they read the engine `F`. -/
def AccessorsOf (L : Likeness settings) (name : String) (F : EngineId) (n : String) (held : Held) (a : Accessor) :
    Prop :=
  (n = name → a = held.accessor) ∧ (held.engine = F → L.accessor held.accessor a)

/-- Sessions that the accessor `name` of the engine `F` does not tell apart. -/
inductive Resembles (L : Likeness settings) (name : String) (F : EngineId) (s : Session) : Session → Prop
  | mk {store : Store} {accessors : List (String × Held)} (hstore : s.store.Resembles (RegistriesOf L F) store)
    (haccessors : ∀ n, Held.Resembles (AccessorsOf L name F n) (s.accessors.lookup n) (accessors.lookup n)) :
    Resembles L name F s { s with store, accessors }

variable {s s' t t' : Session} {n : String} {G : EngineId} {e : Engine} {r r' : Registry} {held : Held} {a : Accessor}
  {taken : Step}

private theorem accessorsOf_self (L : Likeness settings) (name : String) (F : EngineId) (n : String) (held : Held) :
    AccessorsOf L name F n held held.accessor := ⟨fun _ => rfl, fun _ => L.refl _⟩

private theorem Held.resembles_self (o : Option Held) : Held.Resembles (AccessorsOf L name F n) o o := by
  cases o with
  | none => exact .absent
  | some held => exact .present (a := held.accessor) (accessorsOf_self L name F n held)

theorem Resembles.refl (h : ∀ e, s.store.engine? F = some e → L.registry e.registry e.registry) :
    s.Resembles L name F s := by
  have hengine (G : EngineId) : Engine.Resembles (RegistriesOf L F G) (s.store.engine? G) (s.store.engine? G) := by
    cases hG : s.store.engine? G with
    | none => exact .absent
    | some e =>
      refine .present (r := e.registry) ?_
      rintro rfl
      exact h e hG
  have hstore : s.store.Resembles (RegistriesOf L F) s.store := .mk hengine
  exact .mk hstore fun n => Held.resembles_self (s.accessors.lookup n)

/-! ### What resembling sessions have in common -/

private theorem Resembles.store (h : s.Resembles L name F s') : s.store.Resembles (RegistriesOf L F) s'.store := by
  cases h with
  | mk hstore _ => exact hstore

private theorem Resembles.accessors (h : s.Resembles L name F s') (n : String) :
    Held.Resembles (AccessorsOf L name F n) (s.accessors.lookup n) (s'.accessors.lookup n) := by
  cases h with
  | mk _ haccessors => exact haccessors n

private theorem Resembles.engineNames (h : s.Resembles L name F s') : s'.engineNames = s.engineNames := by
  cases h with
  | mk _ _ => rfl

private theorem Resembles.events (h : s.Resembles L name F s') (notices : List Notice) :
    events s' notices = events s notices := by
  cases h with
  | mk _ _ => rfl

private theorem Resembles.markerOf (h : s.Resembles L name F s') (G : EngineId) : markerOf s' G = markerOf s G := by
  have hengine := h.store.engine? G
  unfold Session.markerOf
  generalize s.store.engine? G = o, s'.store.engine? G = o' at hengine
  cases hengine with
  | absent => rfl
  | present => rfl

/-- The same engines have changed. -/
theorem Resembles.changedBetween (h : s.Resembles L name F s') (h' : t.Resembles L name F t') :
    changedBetween s' t' = changedBetween s t := by
  unfold Session.changedBetween
  simp only [h.engineNames, h'.engineNames, h.markerOf, h'.markerOf]

/-! ### Names tell accessors apart -/

/-- No two accessors have the same name. -/
def NamesDiffer (s : Session) : Prop := ∀ p ∈ s.accessors, ∀ q ∈ s.accessors, p.1 = q.1 → p = q

private theorem lookup_of_mem (h : s.NamesDiffer) (hmem : (n, held) ∈ s.accessors) :
    s.accessors.lookup n = some held := by
  obtain ⟨held', hheld'⟩ : ∃ held', s.accessors.lookup n = some held' :=
    Option.isSome_iff_exists.1 (List.lookup_isSome_iff.2 ⟨_, hmem, beq_self_eq_true n⟩)
  rw [hheld', (Prod.mk.inj (h _ (mem_of_lookup hheld') _ hmem rfl)).2]

/-- Which engines are alive shows on names, and on the engines of the accessors. -/
theorem isAlive_congr (hs : s.NamesDiffer) (ht : t.NamesDiffer) (hnames : t.engineNames = s.engineNames)
    (hdefault : t.default = s.default)
    (haccessors : ∀ n, (t.accessors.lookup n).map Held.engine = (s.accessors.lookup n).map Held.engine)
    (G : EngineId) : t.isAlive G = s.isAlive G := by
  have hle {s t : Session} (hs : s.NamesDiffer)
      (haccessors : ∀ n, (t.accessors.lookup n).map Held.engine = (s.accessors.lookup n).map Held.engine)
      (h : s.accessors.any (fun p => p.2.engine == G)) : t.accessors.any fun p => p.2.engine == G := by
    obtain ⟨⟨n, held⟩, hmem, hG⟩ := List.any_eq_true.1 h
    have hn := haccessors n
    rw [lookup_of_mem hs hmem] at hn
    obtain ⟨held', hheld', hengine⟩ := Option.map_eq_some_iff.1 hn
    refine List.any_eq_true.2 ⟨(n, held'), mem_of_lookup hheld', ?_⟩
    dsimp only at hG ⊢
    rw [hengine]
    exact hG
  have hany : t.accessors.any (fun p => p.2.engine == G) = s.accessors.any fun p => p.2.engine == G := by
    rw [Bool.eq_iff_iff]
    exact ⟨hle ht fun n => (haccessors n).symm, hle hs haccessors⟩
  rw [isAlive, isAlive, hnames, hdefault, hany]

private theorem Resembles.isAlive (h : s.Resembles L name F s') (hs : s.NamesDiffer) (hs' : s'.NamesDiffer)
    (G : EngineId) : s'.isAlive G = s.isAlive G := by
  have haccessors (n : String) : (s'.accessors.lookup n).map Held.engine = (s.accessors.lookup n).map Held.engine := by
    have hn := h.accessors n
    generalize s.accessors.lookup n = o, s'.accessors.lookup n = o' at hn
    cases hn with
    | absent => rfl
    | present => rfl
  refine isAlive_congr hs hs' h.engineNames ?_ haccessors G
  cases h with
  | mk _ _ => rfl

theorem Resembles.collect (h : s.Resembles L name F s') (hs : s.NamesDiffer) (hs' : s'.NamesDiffer) :
    s.collect.Resembles L name F s'.collect := by
  have halive := funext (h.isAlive hs hs')
  unfold Session.collect
  rw [halive]
  have hstore := h.store.filter s.isAlive
  cases h with
  | mk _ haccessors => exact .mk hstore haccessors

/-! ### What both sessions get -/

private theorem resembles_withStore (h : s.Resembles L name F s') {st st' : Store}
    (hstore : st.Resembles (RegistriesOf L F) st') : (withStore s st).Resembles L name F (withStore s' st') := by
  cases h with
  | mk _ haccessors => exact .mk hstore haccessors

private theorem resembles_keepRegistry (h : s.Resembles L name F s') (hr : RegistriesOf L F G r r') (hr₀ : Registry) :
    (keepRegistry s G e r).Resembles L name F (keepRegistry s' G { e with registry := hr₀ } r') :=
  resembles_withStore h (h.store.setEngine (e := { e with registry := r }) hr)

/-- The engine `F` gets registries that count as the same by a likeness to which that of the accessors passes. -/
private theorem Resembles.passes (h : s.Resembles L name F s') (hpasses : L.Passes L') (hr : L'.registry r r')
    (hr₀ : Registry) : (keepRegistry s F e r).Resembles L' name F (keepRegistry s' F { e with registry := hr₀ } r') := by
  have hothers (x : EngineId) (hx : x ≠ F) (q q' : Registry) (_ : RegistriesOf L F x q q') : RegistriesOf L' F x q q' :=
    fun hxF => absurd hxF hx
  have hstore := h.store.setEngine_of_imp (e := { e with registry := r }) hothers fun _ => hr
  cases h with
  | @mk store accessors _ haccessors =>
    refine .mk hstore fun n => ?_
    have haccessor := haccessors n
    show Held.Resembles _ (s.accessors.lookup n) (accessors.lookup n)
    generalize s.accessors.lookup n = o, accessors.lookup n = o' at haccessor
    cases haccessor with
    | absent => exact .absent
    | present ha => exact .present ⟨ha.1, fun hF => hpasses _ _ (ha.2 hF)⟩

private theorem resembles_bind (h : s.Resembles L name F s') (ha : AccessorsOf L name F n held a) :
    { s with accessors := bind n held s.accessors }.Resembles L name F
      { s' with accessors := bind n { held with accessor := a } s'.accessors } := by
  cases h with
  | mk hstore haccessors =>
    refine .mk hstore fun m => ?_
    rw [bind, lookup_put, bind, lookup_put]
    split
    · rename_i hm
      exact hm ▸ .present ha
    · exact haccessors m

private theorem resembles_unbind (h : s.Resembles L name F s') (n : String) :
    { s with accessors := unbind n s.accessors }.Resembles L name F
      { s' with accessors := unbind n s'.accessors } := by
  cases h with
  | mk hstore haccessors =>
    refine .mk hstore fun m => ?_
    rw [unbind, lookup_filter_ne, unbind, lookup_filter_ne]
    split
    · exact .absent
    · exact haccessors m

private theorem Held.without_resembles {o o' : Option Held} (h : Held.Resembles (AccessorsOf L name F n) o o')
    (σ : Option Subscription) :
    Held.Resembles (AccessorsOf L name F n) (o.map (Held.without σ)) (o'.map (Held.without σ)) := by
  cases h with
  | absent => exact .absent
  | @present held a ha =>
    have hwithout : Held.without σ { held with accessor := a } = { held.without σ with accessor := a } := by
      unfold Held.without
      cases σ with
      | none => rfl
      | some σ =>
        dsimp only
        split <;> rfl
    rw [Option.map_some, Option.map_some, hwithout]
    refine .present ?_
    rw [AccessorsOf, Held.accessor_without, Held.engine_without]
    exact ha

private theorem resembles_dropSubscription (h : s.Resembles L name F s') (subscription : String) :
    (dropSubscription s subscription).Resembles L name F (dropSubscription s' subscription) := by
  cases h with
  | @mk store accessors hstore haccessors =>
    have hdropped (n : String) := Held.without_resembles (haccessors n) (s.subscriptions.lookup subscription)
    have hlookup (t : Session) (n : String) : (t.accessors.lookup n).map
        (Held.without (t.subscriptions.lookup subscription)) =
          (dropSubscription t subscription).accessors.lookup n := by
      rw [accessors_dropSubscription, lookup_map_snd]
    have hother : dropSubscription { s with store, accessors } subscription =
        { dropSubscription s subscription with
          store, accessors := (dropSubscription { s with store, accessors } subscription).accessors } := by
      unfold dropSubscription
      dsimp only
      split <;> rfl
    have hsame : (dropSubscription s subscription).store = s.store := by
      unfold dropSubscription
      split <;> rfl
    rw [hother]
    refine .mk (hsame ▸ hstore) fun n => ?_
    rw [← hlookup, ← hlookup]
    exact hdropped n

/-! ### Steps on sources and engines -/

/-- Whatever is asked for on the engine `F` does not matter. -/
def AsksOn (K : ι → Likeness settings) (F G : EngineId) : Prop := G = F → Likeness.Asks K

private theorem resembles_withSource (h : s.Resembles L name F s') {f f' : SourceId → Joined → Stepped}
    (hf : ∀ id j, (f id j).session.Resembles L name F (f' id j).session) :
    (withSource s n f).session.Resembles L name F (withSource s' n f').session := by
  have hnames : s'.sourceNames = s.sourceNames := by
    cases h with
    | mk _ _ => rfl
  unfold withSource
  rw [hnames]
  cases s.sourceNames.lookup n with
  | none => exact h
  | some id =>
    dsimp only
    rw [h.store.joined?]
    cases s.store.joined? id with
    | none => exact h
    | some j => exact hf id j

private theorem resembles_withEngine (h : s.Resembles L name F s') {f f' : EngineId → Engine → Stepped}
    (hf : ∀ G e r, RegistriesOf L F G e.registry r →
      (f G e).session.Resembles L name F (f' G { e with registry := r }).session) :
    (withEngine s n f).session.Resembles L name F (withEngine s' n f').session := by
  unfold withEngine
  rw [h.engineNames]
  cases s.engineNames.lookup n with
  | none => exact h
  | some G =>
    have hengine := h.store.engine? G
    dsimp only
    generalize s.store.engine? G = o, s'.store.engine? G = o' at hengine
    cases hengine with
    | absent => exact h
    | present hr => exact hf G _ _ hr

private theorem resembles_stepOfSource (h : s.Resembles L name F s') (id : SourceId) (j : Joined) (taken : Step) :
    (stepOfSource s id j taken).session.Resembles L name F (stepOfSource s' id j taken).session := by
  cases taken with
  | set n key value => exact resembles_withStore h (h.store.setValue id j key value)
  | remove n key => exact resembles_withStore h (h.store.removeKey id j key)
  | report n =>
    unfold stepOfSource isReporting
    cases j.reporter with
    | none => exact h
    | some G => exact resembles_withStore h (h.store.report j)
  | reporterListing n =>
    unfold stepOfSource isReporting
    cases j.reporter with
    | none => exact h
    | some G => exact h
  | sourceReload n =>
    have hstart : (Store.Noticed.mk s.store []).store.Resembles (RegistriesOf L F)
        (Store.Noticed.mk s'.store []).store := h.store
    exact resembles_withStore h (hstart.reloadSource id)
  | _ => exact h

private theorem AsksOn.convert (hasks : AsksOn K F G) (hr : RegistriesOf (K i) F G r r') (t : ValueType)
    (raw : Option String) : RegistriesOf (K i) F G (r.convert t raw).2 (r'.convert t raw).2 := by
  intro hG
  rw [Registry.registry_convert, Registry.registry_convert]
  cases raw with
  | none => exact hr hG
  | some raw => exact (hasks hG).resolve (hr hG) t

/-- The steps that ask an engine for converters, those that read the accessor `name` apart. -/
def Step.asksOther (name : String) : Step → Bool
  | .value .. | .optionalValue .. | .converters .. => true
  | .read n _ => n != name
  | _ => false

private theorem resembles_stepOfEngine (h : s.Resembles (K i) name F s') (hr : RegistriesOf (K i) F G e.registry r)
    (htaken : taken.asksOther name = true → AsksOn K F G) (hkeeps : ∀ n c, taken ≠ .converters n (.register c)) :
    (stepOfEngine s G e taken).session.Resembles (K i) name F
      (stepOfEngine s' G { e with registry := r } taken).session := by
  cases taken with
  | value n t key | optionalValue n t key =>
    have hconverted := (htaken rfl).convert hr t ((s.store.view e).present? key)
    unfold stepOfEngine
    rw [h.store.view]
    exact resembles_keepRegistry h hconverted _
  | converters n call =>
    refine resembles_keepRegistry h (fun hG => ?_) _
    cases call with
    | register c => exact absurd rfl (hkeeps n c)
    | convert t raw => exact (htaken rfl).convert hr t raw hG
    | has t =>
      have hresolved := (htaken rfl hG).resolve (hr hG) t
      rw [← Registry.registry_hasConverter, ← Registry.registry_hasConverter] at hresolved
      exact hresolved
  | clone _ n =>
    cases h with
    | mk hstore haccessors => exact .mk hstore haccessors
  | addSources n sources =>
    cases h with
    | mk hstore haccessors => exact .mk (hstore.addSources G _) haccessors
  | externalChange n => exact resembles_withStore h (h.store.reportTo G)
  | reload n => exact resembles_withStore h (h.store.reload G e r)
  | close n => exact resembles_withStore h (h.store.close hr)
  | registerDefault _ n =>
    cases h with
    | mk hstore haccessors => exact .mk hstore haccessors
  | _ => exact h

/-- A source is made of the world around the engines. -/
private theorem makeSource_congr {P : EngineId → Registry → Registry → Prop} {st st' : Store} (h : st.Resembles P st')
    (spec : SourceSpec) : makeSource st' spec = makeSource st spec := by
  cases h with
  | mk h =>
    cases spec with
    | _ => rfl

private theorem resembles_stepSource (h : s.Resembles L name F s') (n : String) (spec : SourceSpec) :
    (stepSource s n spec).session.Resembles L name F (stepSource s' n spec).session := by
  unfold stepSource
  rw [makeSource_congr h.store]
  cases makeSource s.store spec with
  | error e => exact h
  | ok source =>
    have hadded := h.store.addSource source
    dsimp only
    rw [h.store.id_addSource]
    cases h with
    | mk _ haccessors => exact .mk hadded haccessors

private theorem resembles_stepReleaseDefault (h : s.Resembles L name F s') :
    (stepReleaseDefault s).session.Resembles L name F (stepReleaseDefault s').session := by
  have hreleased : { s with default := none }.Resembles L name F { s' with default := none } := by
    cases h with
    | mk hstore haccessors => exact .mk hstore haccessors
  have hdefault : s'.default = s.default := by
    cases h with
    | mk _ _ => rfl
  unfold stepReleaseDefault
  rw [hdefault]
  cases s.default with
  | none => exact hreleased
  | some G =>
    have hengine := h.store.engine? G
    dsimp only [Option.bind_some]
    generalize s.store.engine? G = o, s'.store.engine? G = o' at hengine
    cases hengine with
    | absent => exact hreleased
    | present hr => exact resembles_withStore hreleased (h.store.close hr)

/-! ### Steps on accessors -/

/-- The same answers and events, and sessions that resemble each other. -/
structure Stepped.Resembles (L : Likeness settings) (name : String) (F : EngineId) (p p' : Stepped) : Prop where
  result : p'.result = p.result
  resolvedKey : p'.resolvedKey = p.resolvedKey
  events : p'.events = p.events
  session : p.session.Resembles L name F p'.session

private theorem resembles_afterReading {b b' : Accessor} {q q' : Registry}
    (h : (keepRegistry s held.engine e q).Resembles L name F
      (keepRegistry s' held.engine { e with registry := r } q'))
    (hname : n = name → b' = b) (hb : held.engine = F → L.accessor b b')
    {asked asked' : List String} {change change' : Option Accessor.Change} {result result' : Except Failure Answer} :
    (afterReading s n held e b q asked change result).session.Resembles L name F
      (afterReading s' n { held with accessor := a } { e with registry := r } b' q' asked' change' result').session :=
  resembles_bind h ⟨hname, hb⟩

private theorem resembles_stepRead_other (h : s.Resembles (K i) name F s') (hn : n ≠ name)
    (hasks : AsksOn K F held.engine) (hr : RegistriesOf (K i) F held.engine e.registry r)
    (ha : AccessorsOf (K i) name F n held a)
    (htextual : held.accessor.suffixes.AreTextual) (kind : ReadKind) :
    ∃ j, (stepRead s n held e kind).session.Resembles (K j) name F
      (stepRead s' n { held with accessor := a } { e with registry := r } kind).session := by
  have hname {b b' : Accessor} (hname : n = name) : b' = b := absurd hname hn
  unfold stepRead
  rw [h.store.view]
  cases kind with
  | value | optional =>
    by_cases hF : held.engine = F
    · subst hF
      obtain ⟨j, hpasses, hread, hb⟩ := (hasks rfl).optionalValue (hr rfl) (ha.2 rfl) htextual (s.store.view e)
      exact ⟨j, resembles_afterReading (h.passes hpasses hread r) hname fun _ => hb⟩
    · have hother (q q' : Registry) : RegistriesOf (K i) F held.engine q q' := fun hG => absurd hG hF
      have hkept (q q' : Registry) := resembles_keepRegistry (e := e) h (hother q q') r
      exact ⟨i, resembles_afterReading (hkept _ _) hname fun hG => absurd hG hF⟩
  | raw =>
    have hread (hF : held.engine = F) := (hasks hF).rawValue (hr hF) (ha.2 hF) htextual (s.store.view e)
    have hkept := resembles_keepRegistry (e := e) h (fun hF => (hread hF).1) r
    exact ⟨i, resembles_afterReading hkept hname fun hF => (hread hF).2⟩
  | default | key | listing | none => exact ⟨i, h⟩

private theorem resembles_afterReading_self (h : s.Resembles L name F s') {b : Accessor} {q q' : Registry}
    (hq : L.registry q q') (asked : List String) (change : Option Accessor.Change) (result : Except Failure Answer) :
    Stepped.Resembles L name F (afterReading s name held e b q asked change result)
      (afterReading s' name held { e with registry := r } b q' asked change result) := by
  have hkept := resembles_keepRegistry (G := held.engine) (e := e) h (fun _ => hq) r
  refine ⟨rfl, rfl, ?_, resembles_afterReading hkept (fun _ => rfl) fun _ => L.refl b⟩
  unfold afterReading
  dsimp only
  rw [h.store.notices, h.events]

/-- The accessor itself reads alike. -/
private theorem resembles_stepRead_self (h : s.Resembles L name F s') (hF : held.engine = F)
    (hheld : held.accessor.IsLiteral settings) (hr : RegistriesOf L F held.engine e.registry r) (kind : ReadKind) :
    Stepped.Resembles L name F (stepRead s name held e kind)
      (stepRead s' name held { e with registry := r } kind) := by
  have hregistry := hr hF
  unfold stepRead
  rw [h.store.view]
  cases kind with
  | value | optional =>
    obtain ⟨houtcome, haccessor, hasked, hchange, hleft⟩ := hheld.reading L hregistry (s.store.view e)
    dsimp only [Accessor.value]
    rw [houtcome, haccessor, hasked, hchange]
    exact resembles_afterReading_self h hleft _ _ _
  | raw =>
    obtain ⟨text, b, asked, -, hread⟩ := hheld.rawValue_eq (s.store.view e)
    dsimp only
    rw [hread, hread]
    exact resembles_afterReading_self h hregistry _ _ _
  | default | key | listing | none => exact ⟨rfl, rfl, rfl, h⟩

private theorem resembles_stepSubscribe (h : s.Resembles L name F s') (ha : AccessorsOf L name F n held a)
    (subscription : String) :
    (stepSubscribe s n subscription held).session.Resembles L name F
      (stepSubscribe s' n subscription { held with accessor := a }).session := by
  have hbound : { s with accessors := bind n (held.listenedBy subscription) s.accessors }.Resembles L name F
      { s' with accessors := bind n { held.listenedBy subscription with accessor := a } s'.accessors } :=
    resembles_bind h ha
  have hdropped := resembles_dropSubscription hbound subscription
  have hnamed {t t' : Session} (h : t.Resembles L name F t') (σ : Subscription) :
      { t with subscriptions := bind subscription σ t.subscriptions }.Resembles L name F
        { t' with subscriptions := bind subscription σ t'.subscriptions } := by
    cases h with
    | mk hstore haccessors => exact .mk hstore haccessors
  exact hnamed hdropped ⟨held.serial, held.nextListener⟩

/-- A step on an accessor fails in both sessions, or happens to it in both. -/
private theorem resembles_withAccessor_cases (h : s.Resembles L name F s') {P : Stepped → Stepped → Prop}
    {f f' : Held → Engine → Stepped} (hfail : ∀ what, P (fail s what) (fail s' what))
    (hfound : ∀ held a e r, s.accessors.lookup n = some held → AccessorsOf L name F n held a →
      RegistriesOf L F held.engine e.registry r →
        P (f held e) (f' { held with accessor := a } { e with registry := r })) :
    P (withAccessor s n f) (withAccessor s' n f') := by
  have haccessor := h.accessors n
  unfold withAccessor
  generalize hheld : s.accessors.lookup n = o, s'.accessors.lookup n = o' at haccessor
  cases haccessor with
  | absent => exact hfail _
  | @present held a ha =>
    have hengine := h.store.engine? held.engine
    dsimp only
    generalize s.store.engine? held.engine = o, s'.store.engine? held.engine = o' at hengine
    cases hengine with
    | absent => exact hfail _
    | present hr => exact hfound held a _ _ hheld ha hr

/-- A step that builds no engine and no accessor, registers no converter and leaves the accessor `name`. -/
def Step.Keeps (name : String) : Step → Prop
  | .build .. | .defaultEngine _ | .accessor .. | .converters _ (.register _) => False
  | .dropAccessor n => n ≠ name
  | _ => True

/-- The accessor `name` reads the engine `F`, with given settings, and its suffixes are all given as texts. -/
def Owns (settings : Accessor.Settings) (name : String) (F : EngineId) (s : Session) : Prop :=
  ∃ held, s.accessors.lookup name = some held ∧ held.engine = F ∧ held.accessor.IsLiteral settings

theorem resembles_perform_self (h : s.Resembles L name F s') (howns : Owns settings name F s) (kind : ReadKind) :
    Stepped.Resembles L name F (perform s (.read name kind)) (perform s' (.read name kind)) := by
  obtain ⟨own, hown, hF, hliteral⟩ := howns
  refine resembles_withAccessor_cases h (fun what => ⟨rfl, rfl, rfl, h⟩) fun held a e r hheld ha hr => ?_
  obtain rfl := Option.some.inj (hown.symm.trans hheld)
  rw [ha.1 rfl]
  exact resembles_stepRead_self h hF hliteral hr kind

/-- The suffixes of all accessors are texts. -/
def TextualSuffixes (s : Session) : Prop := ∀ p ∈ s.accessors, p.2.accessor.suffixes.AreTextual

/-- Sessions that resemble each other still do after a step that reads no other accessor. -/
private theorem resembles_perform_same (h : s.Resembles (K i) name F s') (howns : Owns settings name F s)
    (hkeeps : taken.Keeps name) (hasks : taken.asksOther name = true → Likeness.Asks K)
    (hother : ∀ n kind, taken = .read n kind → n = name) :
    (perform s taken).session.Resembles (K i) name F (perform s' taken).session := by
  have hengine {n : String} (hregister : ∀ n c, taken ≠ .converters n (.register c)) :
      (withEngine s n fun G e => stepOfEngine s G e taken).session.Resembles (K i) name F
        (withEngine s' n fun G e => stepOfEngine s' G e taken).session :=
    resembles_withEngine h fun G e r hr => resembles_stepOfEngine h hr (fun hother _ => hasks hother) hregister
  have hsource {n : String} : (withSource s n fun id j => stepOfSource s id j taken).session.Resembles (K i) name F
      (withSource s' n fun id j => stepOfSource s' id j taken).session :=
    resembles_withSource h fun id j => resembles_stepOfSource h id j taken
  cases taken with
  | build | defaultEngine | accessor => exact hkeeps.elim
  | source n spec => exact resembles_stepSource h n spec
  | set | remove | report | reporterListing | sourceGet | sourceReload | sourceClose | sourceInfo => exact hsource
  | writeFile path node => exact resembles_withStore h (h.store.world (·.put path node) id id)
  | deleteFile path => exact resembles_withStore h (h.store.world (·.erase path) id id)
  | environment changes => exact resembles_withStore h (h.store.world id (changes.foldl setVariable) id)
  | sleep milliseconds => exact resembles_withStore h (h.store.world id id (· + milliseconds * 1000000))
  | dropEngine n =>
    cases h with
    | mk hstore haccessors => exact .mk hstore haccessors
  | converters n call =>
    refine hengine ?_
    rintro _ c ⟨⟩
    exact hkeeps
  | clone | rawValue | value | optionalValue | expand | propertyNames | engineSources | addSources | externalChange
  | reload | close | isClosed | registerDefault => exact hengine fun _ _ => nofun
  | releaseDefault => exact resembles_stepReleaseDefault h
  | read n kind =>
    obtain rfl := hother n kind rfl
    exact (resembles_perform_self h howns kind).session
  | subscribe n subscription =>
    exact resembles_withAccessor_cases h (P := fun p p' => p.session.Resembles (K i) name F p'.session) (fun _ => h)
      fun held a e r _ ha _ => resembles_stepSubscribe h ha subscription
  | unsubscribe subscription => exact resembles_dropSubscription h subscription
  | subscriptionListing subscription =>
    have hlisting (t : Session) : (perform t (.subscriptionListing subscription)).session = t := by
      unfold perform
      dsimp only
      split <;> rfl
    rw [hlisting, hlisting]
    exact h
  | dropAccessor n => exact resembles_unbind h n

/-- Sessions that resemble each other still do after a step. -/
theorem resembles_perform (h : s.Resembles (K i) name F s') (howns : Owns settings name F s)
    (htextual : s.TextualSuffixes) (hkeeps : taken.Keeps name)
    (hasks : taken.asksOther name = true → Likeness.Asks K) :
    ∃ j, (perform s taken).session.Resembles (K j) name F (perform s' taken).session := by
  by_cases hother : ∃ n kind, taken = .read n kind ∧ n ≠ name
  · obtain ⟨n, kind, rfl, hn⟩ := hother
    have hasks : Likeness.Asks K := hasks (bne_iff_ne.2 hn)
    exact resembles_withAccessor_cases h (P := fun p p' => ∃ j, p.session.Resembles (K j) name F p'.session)
      (fun _ => ⟨i, h⟩) fun held a e r hheld ha hr =>
        resembles_stepRead_other h hn (fun _ => hasks) hr ha (htextual _ (mem_of_lookup hheld)) kind
  · refine ⟨i, resembles_perform_same h howns hkeeps hasks fun n kind htaken => ?_⟩
    by_contra hn
    exact hother ⟨n, kind, htaken, hn⟩

end LayeredConfig.Session
