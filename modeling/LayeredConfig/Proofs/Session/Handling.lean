import LayeredConfig.Proofs.Accessor.Results
import LayeredConfig.Proofs.Session.Effects

/-!
# What a step does to accessors

`Handling` lists all that a step of a session can do to its accessors, and which listeners it calls
(`handles_perform`).  So an accessor is one that was built, and was at most read since (`Handling.comesFrom`).  Beside
the session runs an account of each accessor: the result that was worked out last, and who listens (`Account.after`).
It is kept from outside, by what the steps are and by what they work out.
-/

namespace LayeredConfig.Session

/-- Whether an event tells a listener of a change. -/
def Event.isChange : Event → Bool
  | .changed .. => true
  | _ => false

/-- The calls of listeners among some events. -/
def changes (events : List Event) : List Event := events.filter Event.isChange

/-- The accessor with a name and its engine, if both are there. -/
def found? (s : Session) (name : String) : Option (Held × Engine) :=
  (s.accessors.lookup name).bind fun held => (s.store.engine? held.engine).map (held, ·)

/-- The accessor with a name and the result that reading it works out, if it does. -/
def recomputedBy? (s : Session) (name : String) : Option (Held × Option Value) :=
  (s.found? name).bind fun p => (p.1.accessor.recomputed? (s.store.view p.2) p.2.registry).map (p.1, ·)

/-- What a step works out anew. -/
def recomputed? (s : Session) : Step → Option (Held × Option Value)
  | .read name .value => s.recomputedBy? name
  | .read name .optional => s.recomputedBy? name
  | _ => none

/-- What is known of an accessor from outside: its last result, if it had one, and who listens to it. -/
structure Account where
  stored : Option Value
  /-- In the order in which they came. -/
  listeners : List String

namespace Account

/-- The account of an accessor that was not read and has no listeners. -/
def fresh : Account := ⟨none, []⟩

/-- Without a listener. -/
def without (acc : Account) (subscription : String) : Account :=
  { acc with listeners := acc.listeners.filter fun l => l ≠ subscription }

/-- With one more listener, which comes last. -/
def listenedBy (acc : Account) (subscription : String) : Account :=
  { acc with listeners := acc.listeners ++ [subscription] }

/-- The account of the accessor with the number `n` after a step.  A new subscription takes the place of an old one of
its name, whoever that listened to. -/
def after (n : Nat) (s : Session) (acc : Account) : Step → Account
  | .unsubscribe subscription => acc.without subscription
  | .subscribe name subscription =>
    match s.found? name with
    | some (held, _) =>
      if held.serial = n then (acc.without subscription).listenedBy subscription else acc.without subscription
    | none => acc
  | taken =>
    match s.recomputed? taken with
    | some (held, value) => if held.serial = n then { acc with stored := value } else acc
    | none => acc

/-- The account after several steps. -/
def afterAll (n : Nat) : Session → Account → List Step → Account
  | _, acc, [] => acc
  | s, acc, taken :: rest => afterAll n (s.step taken).2 (acc.after n s taken) rest

end Account

/-- A step that works out nothing, and leaves listeners as they are. -/
structure Quiet (s : Session) (taken : Step) : Prop where
  recomputed : s.recomputed? taken = none
  account : ∀ n acc, Account.after n s acc taken = acc

/-- What a step of a session does to its accessors, subscriptions and the next number, and which listeners it calls. -/
inductive Handling (s : Session) :
    Step → List (String × Held) → List (String × Subscription) → Nat → List Event → Prop
  | nothing {taken : Step} (h : s.Quiet taken) : Handling s taken s.accessors s.subscriptions s.nextSerial []
  | built {name engine key : String} {steps : List BuildStep} {F : EngineId} {e : Engine} {a : Accessor}
    (he : s.store.engine? F = some e)
    (ha : (Accessor.build (s.store.view e) e.registry key steps).outcome = .ok a) :
    Handling s (.accessor name engine key steps) (bind name ⟨s.nextSerial, F, a, [], 1⟩ s.accessors) s.subscriptions
      (s.nextSerial + 1) []
  | read {name : String} {kind : ReadKind} {held : Held} {e : Engine} (hkind : kind = .value ∨ kind = .optional)
    (hfound : s.found? name = some (held, e)) :
    Handling s (.read name kind)
      (bind name { held with accessor := (held.accessor.optionalValue (s.store.view e) e.registry).accessor }
        s.accessors) s.subscriptions s.nextSerial
      (changeEvents held (held.accessor.optionalValue (s.store.view e) e.registry).change)
  | rawRead {name : String} {held : Held} {e : Engine} (hfound : s.found? name = some (held, e)) :
    Handling s (.read name .raw)
      (bind name { held with accessor := (held.accessor.rawValue (s.store.view e) e.registry).accessor } s.accessors)
      s.subscriptions s.nextSerial []
  | subscribed {name subscription : String} {held : Held} {e : Engine} (hfound : s.found? name = some (held, e)) :
    Handling s (.subscribe name subscription) (stepSubscribe s name subscription held).session.accessors
      (stepSubscribe s name subscription held).session.subscriptions s.nextSerial []
  | unsubscribed {subscription : String} :
    Handling s (.unsubscribe subscription) (dropSubscription s subscription).accessors
      (dropSubscription s subscription).subscriptions s.nextSerial []
  | dropped {name : String} :
    Handling s (.dropAccessor name) (unbind name s.accessors) s.subscriptions s.nextSerial []

variable {s : Session}

/-! ### Where accessors come from -/

theorem of_found? {name : String} {held : Held} {e : Engine} (h : s.found? name = some (held, e)) :
    s.accessors.lookup name = some held ∧ s.store.engine? held.engine = some e := by
  obtain ⟨held', hheld, h⟩ := Option.bind_eq_some_iff.1 h
  obtain ⟨e', he, h⟩ := Option.map_eq_some_iff.1 h
  obtain ⟨rfl, rfl⟩ := Prod.mk.inj h
  exact ⟨hheld, he⟩

/-- An accessor without the listener of a subscription, if there is such a subscription and it is one of its. -/
def Held.without (σ : Option Subscription) (held : Held) : Held :=
  match σ with
  | none => held
  | some σ =>
    if held.serial = σ.accessor then { held with listeners := held.listeners.filter fun l => l.1 ≠ σ.number }
    else held

@[simp] theorem Held.serial_without (σ : Option Subscription) (held : Held) :
    (held.without σ).serial = held.serial := by
  unfold without
  split
  · rfl
  · split <;> rfl

@[simp] theorem Held.engine_without (σ : Option Subscription) (held : Held) :
    (held.without σ).engine = held.engine := by
  unfold without
  split
  · rfl
  · split <;> rfl

@[simp] theorem Held.accessor_without (σ : Option Subscription) (held : Held) :
    (held.without σ).accessor = held.accessor := by
  unfold without
  split
  · rfl
  · split <;> rfl

@[simp] theorem Held.nextListener_without (σ : Option Subscription) (held : Held) :
    (held.without σ).nextListener = held.nextListener := by
  unfold without
  split
  · rfl
  · split <;> rfl

theorem accessors_dropSubscription (s : Session) (name : String) :
    (dropSubscription s name).accessors =
      s.accessors.map fun p => (p.1, p.2.without (s.subscriptions.lookup name)) := by
  unfold dropSubscription
  cases s.subscriptions.lookup name with
  | none => exact (List.map_id' s.accessors).symm
  | some σ =>
    refine List.map_congr_left fun p _ => ?_
    unfold Held.without
    dsimp only
    split <;> rfl

/-- An accessor with one more listener, which comes last. -/
def Held.listenedBy (held : Held) (subscription : String) : Held :=
  { held with listeners := held.listeners ++ [(held.nextListener, subscription)], nextListener := held.nextListener + 1 }

/-- How an accessor comes about in a step: it is built, or it was there already, with the same engine, and is at most
read. -/
inductive ComesFrom (s : Session) (held : Held) : Prop
  | built {e : Engine} {key : String} {steps : List BuildStep} (he : s.store.engine? held.engine = some e)
    (hserial : held.serial = s.nextSerial)
    (ha : (Accessor.build (s.store.view e) e.registry key steps).outcome = .ok held.accessor)
  | kept {p : String × Held} (hp : p ∈ s.accessors) (hengine : held.engine = p.2.engine)
    (hserial : held.serial = p.2.serial) (ha : held.accessor = p.2.accessor)
  | read {p : String × Held} {e : Engine} (hp : p ∈ s.accessors) (hengine : held.engine = p.2.engine)
    (he : s.store.engine? p.2.engine = some e) (hserial : held.serial = p.2.serial)
    (ha : held.accessor = (p.2.accessor.optionalValue (s.store.view e) e.registry).accessor)
  | rawRead {p : String × Held} {e : Engine} (hp : p ∈ s.accessors) (hengine : held.engine = p.2.engine)
    (he : s.store.engine? p.2.engine = some e) (hserial : held.serial = p.2.serial)
    (ha : held.accessor = (p.2.accessor.rawValue (s.store.view e) e.registry).accessor)

private theorem ComesFrom.without {held : Held} (h : s.ComesFrom held) (σ : Option Subscription) :
    s.ComesFrom (held.without σ) := by
  cases h with
  | built he hserial ha =>
    exact .built (by rwa [Held.engine_without]) (by rwa [Held.serial_without]) (by rwa [Held.accessor_without])
  | kept hp hengine hserial ha =>
    exact .kept hp (by rwa [Held.engine_without]) (by rwa [Held.serial_without]) (by rwa [Held.accessor_without])
  | read hp hengine he hserial ha =>
    exact .read hp (by rwa [Held.engine_without]) he (by rwa [Held.serial_without]) (by rwa [Held.accessor_without])
  | rawRead hp hengine he hserial ha =>
    exact .rawRead hp (by rwa [Held.engine_without]) he (by rwa [Held.serial_without]) (by rwa [Held.accessor_without])

/-- An accessor keeps its settings as long as it has its number. -/
theorem ComesFrom.settings {held : Held} (h : s.ComesFrom held) (hlt : held.serial < s.nextSerial) :
    ∃ p ∈ s.accessors, p.2.serial = held.serial ∧ p.2.accessor.settings = held.accessor.settings := by
  cases h with
  | built _ hserial _ => exact absurd hlt (hserial ▸ Nat.lt_irrefl _)
  | kept hp _ hserial ha => exact ⟨_, hp, hserial.symm, by rw [ha]⟩
  | read hp _ _ hserial ha => exact ⟨_, hp, hserial.symm, by rw [ha, (Accessor.optionalValue_eq _ _ _).2.2]⟩
  | rawRead hp _ _ hserial ha => exact ⟨_, hp, hserial.symm, by rw [ha, (Accessor.rawValue_eq _ _ _).2]⟩

/-- Every accessor comes from one before, or is built. -/
theorem Handling.comesFrom {taken : Step} {accs : List (String × Held)} {subs : List (String × Subscription)}
    {next : Nat} {called : List Event} (h : Handling s taken accs subs next called) :
    ∀ p ∈ accs, s.ComesFrom p.2 := by
  have hkept : ∀ p ∈ s.accessors, s.ComesFrom p.2 := fun p hp => .kept hp rfl rfl rfl
  have hbind {name : String} {held : Held} (hheld : s.ComesFrom held) :
      ∀ p ∈ bind name held s.accessors, s.ComesFrom p.2 := by
    intro p hp
    rcases mem_bind hp with rfl | hp
    · exact hheld
    · exact hkept p hp
  have hdropped {t : Session} (ht : ∀ p ∈ t.accessors, s.ComesFrom p.2) (name : String) :
      ∀ p ∈ (dropSubscription t name).accessors, s.ComesFrom p.2 := by
    intro p hp
    rw [accessors_dropSubscription] at hp
    obtain ⟨q, hq, rfl⟩ := List.mem_map.1 hp
    exact (ht q hq).without _
  cases h with
  | nothing => exact hkept
  | built he ha => exact hbind (.built he rfl ha)
  | read _ hfound =>
    obtain ⟨hheld, he⟩ := of_found? hfound
    exact hbind (.read (mem_of_lookup hheld) rfl he rfl rfl)
  | rawRead hfound =>
    obtain ⟨hheld, he⟩ := of_found? hfound
    exact hbind (.rawRead (mem_of_lookup hheld) rfl he rfl rfl)
  | @subscribed name subscription held e hfound =>
    have hheld := mem_of_lookup (of_found? hfound).1
    exact hdropped (t := { s with accessors := bind name (held.listenedBy subscription) s.accessors })
      (hbind (.kept hheld rfl rfl rfl)) subscription
  | unsubscribed => exact hdropped hkept _
  | dropped => exact fun p hp => hkept p (List.mem_filter.1 hp).1

theorem Handling.nextSerial_le {taken : Step} {accs : List (String × Held)} {subs : List (String × Subscription)}
    {next : Nat} {called : List Event} (h : Handling s taken accs subs next called) : s.nextSerial ≤ next := by
  cases h with
  | built => exact Nat.le_succ _
  | _ => exact Nat.le_refl _

/-! ### Calls of listeners -/

theorem changes_events (s : Session) (notices : List Notice) : changes (events s notices) = [] := by
  rw [changes, List.filter_eq_nil_iff]
  intro event hevent
  obtain ⟨notice, -, rfl⟩ := List.mem_map.1 hevent
  cases notice with
  | _ => exact Bool.false_ne_true

private theorem changes_changeEvents (held : Held) (change : Option Accessor.Change) :
    changes (changeEvents held change) = changeEvents held change := by
  cases change with
  | none => rfl
  | some c =>
    rw [changes, List.filter_eq_self]
    intro event hevent
    obtain ⟨l, -, rfl⟩ := List.mem_map.1 hevent
    rfl

private theorem changes_append (l l' : List Event) : changes (l ++ l') = changes l ++ changes l' :=
  List.filter_append l l'

/-! ### All steps -/

/-- Whether a step is of the list. -/
def Stepped.Handles (s : Session) (taken : Step) (p : Stepped) : Prop :=
  Handling s taken p.session.accessors p.session.subscriptions p.session.nextSerial (changes p.events)

private theorem handles_of_events {taken : Step} (h : s.Quiet taken) {result : Except Failure Answer}
    {resolvedKey : Option (Option String)} {s' : Session} (notices : List Notice)
    (haccessors : s'.accessors = s.accessors) (hsubscriptions : s'.subscriptions = s.subscriptions)
    (hserial : s'.nextSerial = s.nextSerial) :
    (Stepped.mk result resolvedKey (events s notices) s').Handles s taken := by
  unfold Stepped.Handles
  rw [changes_events, haccessors, hsubscriptions, hserial]
  exact .nothing h

private theorem handles_withStore {taken : Step} (h : s.Quiet taken) (store : Store) :
    (answer (withStore s store) .nothing).Handles s taken := .nothing h

/-- A step on an accessor fails, or happens to one that is there with its engine. -/
theorem withAccessor_found_cases {P : Stepped → Prop} {name : String} {f : Held → Engine → Stepped}
    (hfail : s.found? name = none → ∀ what, P (fail s what))
    (hfound : ∀ held e, s.found? name = some (held, e) → P (f held e)) : P (withAccessor s name f) := by
  unfold withAccessor
  split
  · rename_i hheld
    exact hfail (by rw [found?, hheld]; rfl) _
  · rename_i held hheld
    split
    · rename_i he
      exact hfail (by rw [found?, hheld, Option.bind_some, he]; rfl) _
    · rename_i e he
      exact hfound held e (by rw [found?, hheld, Option.bind_some, he]; rfl)

private theorem quiet_read {name : String} {kind : ReadKind} (h : s.recomputed? (.read name kind) = none) :
    s.Quiet (.read name kind) := by
  refine ⟨h, fun n acc => ?_⟩
  rw [Account.after.eq_def]
  dsimp only
  rw [h]

private theorem recomputedBy?_eq_none {name : String} (h : s.found? name = none) : s.recomputedBy? name = none := by
  rw [recomputedBy?, h]
  rfl

theorem recomputed?_read {name : String} {kind : ReadKind} {held : Held} {e : Engine}
    (hkind : kind = .value ∨ kind = .optional) (hfound : s.found? name = some (held, e)) :
    s.recomputed? (.read name kind) =
      (held.accessor.recomputed? (s.store.view e) e.registry).map (held, ·) := by
  rcases hkind with rfl | rfl
  · exact congrArg (Option.bind · _) hfound
  · exact congrArg (Option.bind · _) hfound

/-- What is worked out is worked out by an accessor that is there with its engine. -/
theorem found_of_recomputed? {taken : Step} {held : Held} {value : Option Value}
    (h : s.recomputed? taken = some (held, value)) :
    ∃ name e, s.found? name = some (held, e) ∧
      held.accessor.recomputed? (s.store.view e) e.registry = some value := by
  have hby {name : String} (h : s.recomputedBy? name = some (held, value)) :
      ∃ name e, s.found? name = some (held, e) ∧
        held.accessor.recomputed? (s.store.view e) e.registry = some value := by
    obtain ⟨⟨held', e⟩, hfound, h⟩ := Option.bind_eq_some_iff.1 h
    obtain ⟨value', hvalue, h⟩ := Option.map_eq_some_iff.1 h
    obtain ⟨rfl, rfl⟩ := Prod.mk.inj h
    exact ⟨name, e, hfound, hvalue⟩
  unfold recomputed? at h
  split at h
  · exact hby h
  · exact hby h
  · cases h

private theorem nextSerial_dropSubscription (s : Session) (name : String) :
    (dropSubscription s name).nextSerial = s.nextSerial := by
  unfold dropSubscription
  split <;> rfl

private theorem handles_stepRead {name : String} {held : Held} {e : Engine} (hfound : s.found? name = some (held, e))
    (kind : ReadKind) : (stepRead s name held e kind).Handles s (.read name kind) := by
  have hread {kind : ReadKind} (hkind : kind = .value ∨ kind = .optional) (result : Except Failure Answer) :
      (afterReading s name held e (held.accessor.optionalValue (s.store.view e) e.registry).accessor
        (held.accessor.optionalValue (s.store.view e) e.registry).registry
        (held.accessor.optionalValue (s.store.view e) e.registry).asked
        (held.accessor.optionalValue (s.store.view e) e.registry).change result).Handles s (.read name kind) := by
    unfold Stepped.Handles afterReading
    rw [changes_append, changes_events, changes_changeEvents, List.nil_append]
    exact .read hkind hfound
  cases kind with
  | value => exact hread (.inl rfl) _
  | optional => exact hread (.inr rfl) _
  | raw =>
    unfold Stepped.Handles stepRead afterReading
    rw [changes_append, changes_events, changes_changeEvents, List.nil_append]
    exact .rawRead hfound
  | default | key | listing | none => exact .nothing (quiet_read rfl)

private theorem handles_stepAccessor {F : EngineId} {e : Engine} (he : s.store.engine? F = some e)
    (name engine key : String) (steps : List BuildStep) :
    (stepAccessor s name F e key steps).Handles s (.accessor name engine key steps) := by
  unfold stepAccessor
  dsimp only
  split
  · exact handles_of_events ⟨rfl, fun _ _ => rfl⟩ _ rfl rfl rfl
  · rename_i a ha
    unfold Stepped.Handles
    rw [changes_events]
    exact .built he ha

private theorem handles_stepOfSource {taken : Step} (h : s.Quiet taken) (id : SourceId) (j : Joined) :
    (stepOfSource s id j taken).Handles s taken := by
  cases taken with
  | report name | reporterListing name =>
    unfold stepOfSource
    dsimp only
    split
    · exact .nothing h
    · exact .nothing h
  | sourceGet name key => exact handles_of_events h _ rfl rfl rfl
  | sourceReload name => exact handles_of_events h _ rfl rfl rfl
  | sourceClose name => exact handles_of_events h _ rfl rfl rfl
  | _ => exact .nothing h

private theorem handles_stepOfEngine {taken : Step} (h : s.Quiet taken) (id : EngineId) (e : Engine) :
    (stepOfEngine s id e taken).Handles s taken := by
  cases taken with
  | rawValue name key => exact handles_of_events h _ rfl rfl rfl
  | value name t key => exact handles_of_events h _ rfl rfl rfl
  | optionalValue name t key => exact handles_of_events h _ rfl rfl rfl
  | expand name raw => exact handles_of_events h _ rfl rfl rfl
  | addSources name sources => exact handles_of_events h _ rfl rfl rfl
  | reload name => exact handles_of_events h _ rfl rfl rfl
  | close name => exact handles_of_events h _ rfl rfl rfl
  | _ => exact .nothing h

/-- Whatever a step does to accessors, the list has it. -/
theorem handles_perform (s : Session) (taken : Step) : (perform s taken).Handles s taken := by
  cases taken with
  | source name spec =>
    show (stepSource s name spec).Handles s _
    unfold stepSource
    split
    · exact .nothing ⟨rfl, fun _ _ => rfl⟩
    · exact .nothing ⟨rfl, fun _ _ => rfl⟩
  | set name _ _ | remove name _ | report name | reporterListing name | sourceGet name _ | sourceReload name
  | sourceClose name | sourceInfo name =>
    refine withSource_cases (P := Stepped.Handles s _) (fun _ => .nothing ⟨rfl, fun _ _ => rfl⟩) fun id j _ _ => ?_
    exact handles_stepOfSource ⟨rfl, fun _ _ => rfl⟩ id j
  | build name sources environment converters =>
    show (stepBuild s name sources environment converters).Handles s _
    unfold stepBuild
    dsimp only
    split
    · exact .nothing ⟨rfl, fun _ _ => rfl⟩
    · exact handles_of_events ⟨rfl, fun _ _ => rfl⟩ _ rfl rfl rfl
  | defaultEngine name =>
    show (stepDefaultEngine s name).Handles s _
    unfold stepDefaultEngine
    split
    · exact .nothing ⟨rfl, fun _ _ => rfl⟩
    · split
      · exact .nothing ⟨rfl, fun _ _ => rfl⟩
      · exact handles_of_events ⟨rfl, fun _ _ => rfl⟩ _ rfl rfl rfl
  | releaseDefault =>
    exact stepReleaseDefault_cases (P := Stepped.Handles s _) (fun _ => .nothing ⟨rfl, fun _ _ => rfl⟩)
      fun _ _ _ _ => handles_of_events ⟨rfl, fun _ _ => rfl⟩ _ rfl rfl rfl
  | clone name _ | rawValue name _ | value name _ _ | optionalValue name _ _ | expand name _
  | propertyNames name | engineSources name | addSources name _ | externalChange name | reload name
  | close name | isClosed name | converters name _ | registerDefault name _ =>
    refine withEngine_cases (P := Stepped.Handles s _) (fun _ _ => .nothing ⟨rfl, fun _ _ => rfl⟩) fun id e _ _ => ?_
    exact handles_stepOfEngine ⟨rfl, fun _ _ => rfl⟩ id e
  | accessor name engine key steps =>
    refine withEngine_cases (P := Stepped.Handles s _) (fun _ _ => .nothing ⟨rfl, fun _ _ => rfl⟩) fun F e _ he => ?_
    exact handles_stepAccessor he name engine key steps
  | read name kind =>
    refine withAccessor_found_cases (P := Stepped.Handles s _) (fun hnone _ => .nothing (quiet_read ?_))
      fun held e hfound => handles_stepRead hfound kind
    cases kind with
    | value | optional => exact recomputedBy?_eq_none hnone
    | _ => rfl
  | subscribe name subscription =>
    refine withAccessor_found_cases (P := Stepped.Handles s _) (fun hnone _ => .nothing ⟨rfl, fun n acc => ?_⟩)
      fun held e hfound => ?_
    · rw [Account.after, hnone]
    · have hserial : (stepSubscribe s name subscription held).session.nextSerial = s.nextSerial :=
        nextSerial_dropSubscription _ subscription
      unfold Stepped.Handles
      rw [hserial]
      exact .subscribed hfound
  | unsubscribe subscription =>
    have hserial : (dropSubscription s subscription).nextSerial = s.nextSerial :=
      nextSerial_dropSubscription s subscription
    show Handling s _ (dropSubscription s subscription).accessors (dropSubscription s subscription).subscriptions
      (dropSubscription s subscription).nextSerial []
    rw [hserial]
    exact .unsubscribed
  | subscriptionListing name =>
    unfold perform
    dsimp only
    split
    · exact .nothing ⟨rfl, fun _ _ => rfl⟩
    · exact .nothing ⟨rfl, fun _ _ => rfl⟩
  | dropAccessor name => exact .dropped
  | dropEngine name => exact .nothing ⟨rfl, fun _ _ => rfl⟩
  -- A store is not compared with the one before it: their times differ by a product of numbers.
  | writeFile path node => exact handles_withStore ⟨rfl, fun _ _ => rfl⟩ _
  | deleteFile path => exact handles_withStore ⟨rfl, fun _ _ => rfl⟩ _
  | environment changes => exact handles_withStore ⟨rfl, fun _ _ => rfl⟩ _
  | sleep milliseconds => exact handles_withStore ⟨rfl, fun _ _ => rfl⟩ _

end LayeredConfig.Session
