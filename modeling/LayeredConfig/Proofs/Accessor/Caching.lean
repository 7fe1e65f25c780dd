import LayeredConfig.Proofs.Accessor.Asking

/-!
# Kept results

An accessor answers from its memory as long as nothing changes and its lifetime is not over.  `answer` is what it
would work out instead, whatever it and the accessors of its suffixes remember.  The invariant `IsCurrent` ties the
two together: what was remembered at the present marker is the answer of the present moment.  Reading then gives the
answer and keeps the invariant (`reads_of_isCurrent`).
-/

namespace LayeredConfig

open Accessor (lookup result remember kept? presentSuffixes consPresent)

mutual

/-- The accessor without lifetimes, its own and those of its suffixes. -/
def Accessor.uncached : Accessor → Accessor
  | .mk s suffixes m => .mk { s with lifetime := none } suffixes.uncached m

/-- The suffixes without lifetimes. -/
def Suffixes.uncached : Suffixes → Suffixes
  | .nil => .nil
  | .literal text rest => .literal text rest.uncached
  | .resolved source rest => .resolved source.uncached rest.uncached

end

mutual

/-- The result that an accessor works out, and the registry after it. -/
def Accessor.answer (v : View) (r : Registry) : Accessor → Except ConfigError (Option Value) × Registry
  | .mk s suffixes _ =>
    match suffixes.texts v r with
    | (.error e, r) => (.error e, r)
    | (.ok texts, r) => result s r (lookup v s texts).raw

/-- The suffixes that apply when all of them are worked out, and the registry after it. -/
def Suffixes.texts (v : View) (r : Registry) : Suffixes → Except ConfigError (List String) × Registry
  | .nil => (.ok [], r)
  | .literal text rest =>
    let p := rest.texts v r
    (p.1.map (consPresent (some text)), p.2)
  | .resolved source rest =>
    match source.answer v r with
    | (.error e, r) => (.error e, r)
    | (.ok value, r) =>
      let p := rest.texts v r
      (p.1.map (consPresent (value.map Value.render)), p.2)

end

mutual

/-- Without lifetimes every result is worked out. -/
private theorem Accessor.optionalValue_uncached (v : View) (r : Registry) (a : Accessor) :
    ((a.uncached.optionalValue v r).outcome, (a.uncached.optionalValue v r).registry) = a.answer v r := by
  cases a with
  | mk s suffixes m =>
    have ih := Suffixes.presentSuffixes_uncached v r suffixes
    rw [Accessor.uncached, Accessor.optionalValue, Accessor.answer, ← ih]
    simp only [kept?]
    cases (presentSuffixes v r suffixes.uncached).outcome with
    | error e => rfl
    | ok texts =>
      show _ = result s _ (lookup v s texts).raw
      have hresult : result { s with lifetime := none } = result s := rfl
      have hlookup : lookup v { s with lifetime := none } texts = lookup v s texts := rfl
      simp only [hresult, hlookup]
      generalize result s _ (lookup v s texts).raw = p
      obtain ⟨_ | value, r⟩ := p
      · rfl
      · rfl

private theorem Suffixes.presentSuffixes_uncached (v : View) (r : Registry) (suffixes : Suffixes) :
    ((presentSuffixes v r suffixes.uncached).outcome, (presentSuffixes v r suffixes.uncached).registry) =
      suffixes.texts v r := by
  cases suffixes with
  | nil => rfl
  | literal text rest =>
    have ih := Suffixes.presentSuffixes_uncached v r rest
    rw [Suffixes.uncached, presentSuffixes, Suffixes.texts, ← ih]
  | resolved source rest =>
    have ih := Accessor.optionalValue_uncached v r source
    rw [Suffixes.uncached, presentSuffixes, Suffixes.texts, ← ih]
    cases (source.uncached.optionalValue v r).outcome with
    | error e => rfl
    | ok value =>
      have ih := Suffixes.presentSuffixes_uncached v (source.uncached.optionalValue v r).registry rest
      simp only [← ih]

end

/-! ### Answers and growing registries -/

private theorem Shape.distinct_ok_of_imp {convert convert' : String → Except ConfigError Value}
    (h : ∀ raw v, convert raw = .ok v → convert' raw = .ok v) {kept : List Value} {tokens : List String}
    {values : List Value} (hv : Shape.distinct Value.same convert kept tokens = .ok values) :
    Shape.distinct Value.same convert' kept tokens = .ok values := by
  induction tokens generalizing kept with
  | nil => exact hv
  | cons token tokens ih =>
    unfold Shape.distinct at hv ⊢
    obtain ⟨v, htoken, hv⟩ := bind_eq_ok.1 hv
    exact bind_eq_ok.2 ⟨v, h token v htoken, ih hv⟩

/-- A text that is decoded by some conversions is decoded alike by conversions that succeed wherever they do. -/
private theorem Shape.decode_ok_of_imp {convert convert' : String → Except ConfigError Value}
    (h : ∀ raw v, convert raw = .ok v → convert' raw = .ok v) {shape : Shape} {key raw : String} {v : Value}
    (hv : shape.decode key raw convert = .ok v) : shape.decode key raw convert' = .ok v := by
  cases shape with
  | scalar =>
    unfold Shape.decode at hv ⊢
    cases hc : convert raw with
    | error e => rw [hc] at hv; nomatch hv
    | ok w =>
      rw [h raw w hc]
      rwa [hc] at hv
  | list =>
    obtain ⟨values, hvalues, hv⟩ := bind_eq_ok.1 hv
    obtain ⟨tokens, htokens, hvalues⟩ := bind_eq_ok.1 hvalues
    exact bind_eq_ok.2 ⟨values, bind_eq_ok.2 ⟨tokens, htokens, mapM_ok_of_imp h hvalues⟩, hv⟩
  | set =>
    obtain ⟨values, hvalues, hv⟩ := bind_eq_ok.1 hv
    obtain ⟨tokens, htokens, hvalues⟩ := bind_eq_ok.1 hvalues
    exact bind_eq_ok.2 ⟨values, bind_eq_ok.2 ⟨tokens, htokens, Shape.distinct_ok_of_imp h hvalues⟩, hv⟩

namespace Accessor

variable {v v' : View} {r r' r'' : Registry}

private theorem decode_again (hr : r.WellFormed) {s : Settings} {raw : String} {x : Value}
    (h : decode s r raw = (.ok x, r')) (hext : r'.Extends r'') (hr'' : r''.WellFormed) :
    decode s r'' raw = (.ok x, r'') := by
  unfold decode at h ⊢
  cases hc : s.converter with
  | some c =>
    simp only [hc] at h ⊢
    obtain ⟨hv, rfl⟩ := Prod.mk.inj h
    rw [Shape.decode_ok_of_imp (fun _ _ => Converter.convert_within (hext.within hr'')) hv]
  | none =>
    simp only [hc] at h ⊢
    cases hres : r.resolve s.type with
    | mk outcome r₁ =>
      rw [hres] at h
      cases outcome with
      | error e => simp at h
      | ok c =>
        obtain ⟨hv, rfl⟩ := Prod.mk.inj h
        have hagain : r''.resolve s.type = (.ok c, r'') :=
          Registry.resolve_again hr (by rw [hres]) (by rw [hres]; exact hext) hr''
        rw [hagain]
        exact Prod.ext (Shape.decode_ok_of_imp (fun _ _ => Converter.convert_within (hext.within hr'')) hv) rfl

private theorem result_again (hr : r.WellFormed) {s : Settings} {raw : Option String} {x : Option Value}
    (h : result s r raw = (.ok x, r')) (hext : r'.Extends r'') (hr'' : r''.WellFormed) :
    result s r'' raw = (.ok x, r'') := by
  cases raw with
  | none =>
    obtain ⟨hx, -⟩ := Prod.mk.inj h
    exact Prod.ext hx rfl
  | some raw =>
    simp only [result] at h ⊢
    cases hd : decode s r raw with
    | mk outcome r₁ =>
      rw [hd] at h
      cases outcome with
      | error e => simp [Except.map] at h
      | ok y =>
        obtain ⟨hx, rfl⟩ := Prod.mk.inj h
        rw [decode_again hr hd hext hr'']
        exact Prod.ext hx rfl

private theorem search_congr (h : v'.find = v.find) (key : String) (suffixes : List String) (mask : Nat) :
    search v' key suffixes mask = search v key suffixes mask := by
  induction mask with
  | zero => rfl
  | succ mask ih =>
    have hpresent : v'.present? = v.present? := by
      funext k
      rw [View.present?, View.present?, h]
    rw [search, search, ih, hpresent]

/-- What a key gives depends on the values of the keys alone. -/
private theorem lookup_congr (h : v'.find = v.find) (s : Settings) (texts : List String) :
    lookup v' s texts = lookup v s texts := by
  have hpresent : v'.present? = v.present? := by
    funext k
    rw [View.present?, View.present?, h]
  have hprocess : process v' s = process v s := by
    funext raw
    rw [process, process, View.expand, View.expand, hpresent]
  rw [lookup, lookup, search_congr h, h, hprocess]

end Accessor

private theorem Accessor.answer_grows {r : Registry} (hr : r.WellFormed) (v : View) (a : Accessor) :
    r.Extends (a.answer v r).2 ∧ (a.answer v r).2.WellFormed := by
  rw [← Accessor.optionalValue_uncached]
  exact (asked_optionalValue v r a.uncached).grows hr

private theorem Suffixes.texts_grows {r : Registry} (hr : r.WellFormed) (v : View) (suffixes : Suffixes) :
    r.Extends (suffixes.texts v r).2 ∧ (suffixes.texts v r).2.WellFormed := by
  rw [← Suffixes.presentSuffixes_uncached]
  exact (Accessor.asked_presentSuffixes v r suffixes.uncached).grows hr

mutual

/-- An answer stays the same while the values of the keys do, whatever else is discovered. -/
private theorem Accessor.answer_again {v v' : View} (hfind : v'.find = v.find) {r r' r'' : Registry} (hr : r.WellFormed)
    (hext : r'.Extends r'') (hr'' : r''.WellFormed) {a : Accessor} {x : Option Value}
    (h : a.answer v r = (.ok x, r')) : a.answer v' r'' = (.ok x, r'') := by
  cases a with
  | mk s suffixes m =>
    rw [Accessor.answer] at h ⊢
    obtain ⟨-, hwf⟩ := Suffixes.texts_grows hr v suffixes
    cases ht : suffixes.texts v r with
    | mk outcome r₁ =>
      rw [ht] at h hwf
      cases outcome with
      | error e => simp at h
      | ok texts =>
        obtain ⟨hgrown, -⟩ := (Accessor.asked_result s _ (lookup v s texts).raw).grows hwf
        dsimp only at h hgrown
        rw [h] at hgrown
        rw [Suffixes.texts_again hfind hr (hgrown.trans hext) hr'' ht]
        dsimp only
        rw [Accessor.lookup_congr hfind]
        exact Accessor.result_again hwf h hext hr''

private theorem Suffixes.texts_again {v v' : View} (hfind : v'.find = v.find) {r r' r'' : Registry} (hr : r.WellFormed)
    (hext : r'.Extends r'') (hr'' : r''.WellFormed) {suffixes : Suffixes} {x : List String}
    (h : suffixes.texts v r = (.ok x, r')) : suffixes.texts v' r'' = (.ok x, r'') := by
  cases suffixes with
  | nil =>
    obtain ⟨hx, -⟩ := Prod.mk.inj h
    exact Prod.ext hx rfl
  | literal text rest =>
    rw [Suffixes.texts] at h ⊢
    cases ht : rest.texts v r with
    | mk outcome r₁ =>
      rw [ht] at h
      cases outcome with
      | error e => simp [Except.map] at h
      | ok texts =>
        obtain ⟨hx, rfl⟩ := Prod.mk.inj h
        rw [Suffixes.texts_again hfind hr hext hr'' ht]
        exact Prod.ext hx rfl
  | resolved source rest =>
    rw [Suffixes.texts] at h ⊢
    obtain ⟨-, hwf⟩ := Accessor.answer_grows hr v source
    -- The first accessor has given its answer from a registry that grew twice since.
    cases ha : source.answer v r with
    | mk outcome r₁ =>
      rw [ha] at h hwf
      cases outcome with
      | error e => simp at h
      | ok value =>
        dsimp only at h hwf
        obtain ⟨hgrown, -⟩ := Suffixes.texts_grows hwf v rest
        cases ht : rest.texts v r₁ with
        | mk outcome r₂ =>
          rw [ht] at h hgrown
          cases outcome with
          | error e => simp [Except.map] at h
          | ok texts =>
            obtain ⟨hx, rfl⟩ := Prod.mk.inj h
            rw [Accessor.answer_again hfind hr (hgrown.trans hext) hr'' ha]
            dsimp only
            rw [Suffixes.texts_again hfind hwf hext hr'' ht]
            exact Prod.ext hx rfl

end

/-! ### Reading with a memory -/

mutual

/-- What an accessor remembers does not change what it would answer. -/
private theorem Accessor.answer_optionalValue (v : View) (r : Registry) (a : Accessor) (v' : View) (r' : Registry) :
    (a.optionalValue v r).accessor.answer v' r' = a.answer v' r' := by
  cases a with
  | mk s suffixes m =>
    have ih := Suffixes.texts_presentSuffixes v r suffixes v' r'
    have hsame (m' : Accessor.Memory) : (Accessor.mk s (presentSuffixes v r suffixes).suffixes m').answer v' r' =
        (Accessor.mk s suffixes m).answer v' r' := by
      rw [Accessor.answer, Accessor.answer, ih]
    rw [Accessor.optionalValue]
    cases kept? v s m with
    | some value => rfl
    | none =>
      dsimp only
      split
      · exact hsame m
      · split
        · exact hsame m
        · exact hsame _

private theorem Suffixes.texts_presentSuffixes (v : View) (r : Registry) (suffixes : Suffixes) (v' : View)
    (r' : Registry) : (presentSuffixes v r suffixes).suffixes.texts v' r' = suffixes.texts v' r' := by
  cases suffixes with
  | nil => rfl
  | literal text rest =>
    have ih := Suffixes.texts_presentSuffixes v r rest v' r'
    rw [presentSuffixes, Suffixes.texts, Suffixes.texts, ih]
  | resolved source rest =>
    have hsource := Accessor.answer_optionalValue v r source v' r'
    rw [presentSuffixes]
    dsimp only
    split
    · rw [Suffixes.texts, Suffixes.texts, hsource]
    · rw [Suffixes.texts, Suffixes.texts, hsource]
      have hrest := Suffixes.texts_presentSuffixes v (source.optionalValue v r).registry rest v'
      simp only [hrest]

end

/-! ### Moments -/

/-- What the readers of an engine depend on at one moment. -/
structure Moment where
  view : View
  registry : Registry
  /-- Whether values may have changed since the marker moved last. -/
  unnoticed : Bool

/-- A later moment: either the marker moved on, or values may have changed without notice, or nothing changed but
for what was discovered. -/
structure Moment.Precedes (now later : Moment) : Prop where
  marker_le : now.view.marker ≤ later.view.marker
  unchanged : later.unnoticed = false → later.view.marker = now.view.marker →
    now.unnoticed = false ∧ later.view.find = now.view.find ∧ now.registry.Extends later.registry

theorem Moment.Precedes.trans {a b c : Moment} (h : a.Precedes b) (h' : b.Precedes c) : a.Precedes c := by
  refine ⟨Nat.le_trans h.marker_le h'.marker_le, fun hnoticed heq => ?_⟩
  have hle := h.marker_le
  have hle' := h'.marker_le
  obtain ⟨hb, hfind', hext'⟩ := h'.unchanged hnoticed (by omega)
  obtain ⟨ha, hfind, hext⟩ := h.unchanged hb (by omega)
  exact ⟨ha, hfind'.trans hfind, hext.trans hext'⟩

mutual

/-- Every result that an accessor or one of its suffixes keeps is from the past, and one that was worked out at the
present marker is the answer of the present moment, unless values may have changed without notice. -/
def Accessor.IsCurrent (now : Moment) : Accessor → Prop
  | .mk s suffixes m =>
    suffixes.AreCurrent now ∧
      (m.readAt.isSome → m.marker ≤ now.view.marker ∧
        (now.unnoticed = false → m.marker = now.view.marker →
          (Accessor.mk s suffixes m).answer now.view now.registry = (.ok m.value, now.registry)))

/-- Every result that the accessors of suffixes keep is from the past, or the answer of the present moment. -/
def Suffixes.AreCurrent (now : Moment) : Suffixes → Prop
  | .nil => True
  | .literal _ rest => rest.AreCurrent now
  | .resolved source rest => source.IsCurrent now ∧ rest.AreCurrent now

end

mutual

/-- What is current stays so. -/
theorem Accessor.IsCurrent.later {now later : Moment} (h : now.Precedes later) (hr : now.registry.WellFormed)
    (hr' : later.registry.WellFormed) {a : Accessor} (ha : a.IsCurrent now) : a.IsCurrent later := by
  cases a with
  | mk s suffixes m =>
    obtain ⟨hsuffixes, hmemory⟩ := ha
    refine ⟨Suffixes.AreCurrent.later h hr hr' hsuffixes, fun hread => ?_⟩
    obtain ⟨hle, hanswer⟩ := hmemory hread
    have hle' := h.marker_le
    refine ⟨Nat.le_trans hle hle', fun hnoticed heq => ?_⟩
    obtain ⟨hbefore, hfind, hext⟩ := h.unchanged hnoticed (by omega)
    exact Accessor.answer_again hfind hr hext hr' (hanswer hbefore (by omega))

private theorem Suffixes.AreCurrent.later {now later : Moment} (h : now.Precedes later) (hr : now.registry.WellFormed)
    (hr' : later.registry.WellFormed) {suffixes : Suffixes} (hs : suffixes.AreCurrent now) :
    suffixes.AreCurrent later := by
  cases suffixes with
  | nil => trivial
  | literal text rest =>
    show rest.AreCurrent later
    exact Suffixes.AreCurrent.later h hr hr' hs
  | resolved source rest =>
    obtain ⟨hsource, hrest⟩ := hs
    exact ⟨Accessor.IsCurrent.later h hr hr' hsource, Suffixes.AreCurrent.later h hr hr' hrest⟩

end

/-- The moment at which everything was noticed. -/
def Moment.noticed (v : View) (r : Registry) : Moment := ⟨v, r, false⟩

private theorem Moment.precedes_of_extends {v : View} {r r' : Registry} (h : r.Extends r') :
    (Moment.noticed v r).Precedes (.noticed v r') :=
  ⟨Nat.le_refl _, fun _ _ => ⟨rfl, rfl, h⟩⟩

/-- What is kept was worked out at the present marker. -/
theorem Accessor.kept?_eq_some {v : View} {s : Accessor.Settings} {m : Accessor.Memory} {value : Option Value}
    (h : kept? v s m = some value) : m.readAt.isSome ∧ m.marker = v.marker ∧ m.value = value := by
  unfold kept? at h
  split at h
  · rename_i hread
    split at h
    · rename_i hkept
      exact ⟨by simp [hread], hkept.1, Option.some.inj h⟩
    · nomatch h
  · nomatch h

/-- A read that gives the answer of the moment and leaves behind what is current. -/
structure Accessor.Reads (v : View) (r : Registry) (a : Accessor) : Prop where
  answer : ((a.optionalValue v r).outcome, (a.optionalValue v r).registry) = a.answer v r
  current : (a.optionalValue v r).accessor.IsCurrent (.noticed v (a.optionalValue v r).registry)

/-- Suffixes that are those of the moment and leave behind what is current. -/
structure Suffixes.Reads (v : View) (r : Registry) (suffixes : Suffixes) : Prop where
  texts : ((presentSuffixes v r suffixes).outcome, (presentSuffixes v r suffixes).registry) = suffixes.texts v r
  current : (presentSuffixes v r suffixes).suffixes.AreCurrent (.noticed v (presentSuffixes v r suffixes).registry)

section

variable {v : View} {r r' : Registry} {s : Accessor.Settings} {suffixes : Suffixes} {m : Accessor.Memory}

private theorem Accessor.answer_presentSuffixes (m' : Accessor.Memory) :
    (Accessor.mk s (presentSuffixes v r suffixes).suffixes m').answer v r' =
      (Accessor.mk s suffixes m).answer v r' := by
  rw [Accessor.answer, Accessor.answer, Suffixes.texts_presentSuffixes]

/-- A read that keeps nothing leaves the memory as current as it was. -/
private theorem Accessor.IsCurrent.of_presentSuffixes (hr : r.WellFormed)
    (h : (Accessor.mk s suffixes m).IsCurrent (.noticed v r)) (hext : r.Extends r') (hr' : r'.WellFormed)
    (hsuffixes : (presentSuffixes v r suffixes).suffixes.AreCurrent (.noticed v r')) :
    (Accessor.mk s (presentSuffixes v r suffixes).suffixes m).IsCurrent (.noticed v r') := by
  obtain ⟨-, hmemory⟩ := h
  refine ⟨hsuffixes, fun hread => ⟨(hmemory hread).1, fun hnoticed hmarker => ?_⟩⟩
  exact (Accessor.answer_presentSuffixes m).trans
    (Accessor.answer_again rfl hr hext hr' ((hmemory hread).2 hnoticed hmarker))

private theorem Accessor.IsCurrent.reads_of_kept (h : (Accessor.mk s suffixes m).IsCurrent (.noticed v r))
    {value : Option Value} (hk : kept? v s m = some value) : (Accessor.mk s suffixes m).Reads v r := by
  obtain ⟨hread, hmarker, rfl⟩ := Accessor.kept?_eq_some hk
  constructor
  · rw [Accessor.optionalValue]
    simp only [hk]
    exact ((h.2 hread).2 rfl hmarker).symm
  · rw [Accessor.optionalValue]
    simp only [hk]
    exact h

private theorem Accessor.IsCurrent.reads_of_not_kept (hr : r.WellFormed)
    (h : (Accessor.mk s suffixes m).IsCurrent (.noticed v r)) (hk : kept? v s m = none)
    (hsuffixes : suffixes.Reads v r) : (Accessor.mk s suffixes m).Reads v r := by
  obtain ⟨htexts, hcurrent⟩ := hsuffixes
  obtain ⟨hext, hwf⟩ := Suffixes.texts_grows hr v suffixes
  rw [← htexts] at hext hwf
  cases ho : (presentSuffixes v r suffixes).outcome with
  | error e =>
    constructor
    · rw [Accessor.optionalValue, Accessor.answer, ← htexts]
      simp only [hk, ho]
    · rw [Accessor.optionalValue]
      simp only [hk, ho]
      exact h.of_presentSuffixes hr hext hwf hcurrent
  | ok texts =>
    obtain ⟨hext', hwf'⟩ := (Accessor.asked_result s _ (lookup v s texts).raw).grows hwf
    have hanswer : (Accessor.mk s suffixes m).answer v r =
        result s (presentSuffixes v r suffixes).registry (lookup v s texts).raw := by
      rw [Accessor.answer, ← htexts]
      simp only [ho]
    cases hres : result s (presentSuffixes v r suffixes).registry (lookup v s texts).raw with
    | mk outcome r' =>
      rw [hres] at hext' hwf' hanswer
      have hcurrent' := hcurrent.later (Moment.precedes_of_extends hext') hwf hwf'
      cases outcome with
      | error e =>
        constructor
        · rw [Accessor.optionalValue, hanswer]
          simp only [hk, ho, hres]
        · rw [Accessor.optionalValue]
          simp only [hk, ho, hres]
          exact h.of_presentSuffixes hr (hext.trans hext') hwf' hcurrent'
      | ok value =>
        constructor
        · rw [Accessor.optionalValue, hanswer]
          simp only [hk, ho, hres]
        · rw [Accessor.optionalValue]
          simp only [hk, ho, hres]
          -- The registry has all it needs now, so the answer just given would be given again.
          refine ⟨hcurrent', fun _ => ⟨Nat.le_refl _, fun _ _ => ?_⟩⟩
          exact (Accessor.answer_presentSuffixes _).trans (Accessor.answer_again rfl hr (.refl r') hwf' hanswer)

end

mutual

/-- A read gives the answer of the present moment. -/
theorem Accessor.IsCurrent.reads {v : View} {r : Registry} (hr : r.WellFormed) {a : Accessor}
    (h : a.IsCurrent (.noticed v r)) : a.Reads v r := by
  cases a with
  | mk s suffixes m =>
    cases hk : kept? v s m with
    | some value => exact h.reads_of_kept hk
    | none => exact h.reads_of_not_kept hr hk (Suffixes.AreCurrent.reads hr h.1)

private theorem Suffixes.AreCurrent.reads {v : View} {r : Registry} (hr : r.WellFormed) {suffixes : Suffixes}
    (h : suffixes.AreCurrent (.noticed v r)) : suffixes.Reads v r := by
  cases suffixes with
  | nil => exact ⟨rfl, trivial⟩
  | literal text rest =>
    have hrest : rest.AreCurrent (.noticed v r) := h
    obtain ⟨htexts, hcurrent⟩ := Suffixes.AreCurrent.reads hr hrest
    constructor
    · rw [presentSuffixes, Suffixes.texts, ← htexts]
    · rw [presentSuffixes]
      exact hcurrent
  | resolved source rest =>
    obtain ⟨hsource, hrest⟩ := h
    obtain ⟨hanswer, hcurrent⟩ := Accessor.IsCurrent.reads hr hsource
    obtain ⟨hext, hwf⟩ := Accessor.answer_grows hr v source
    rw [← hanswer] at hext hwf
    have hrest' := hrest.later (Moment.precedes_of_extends hext) hr hwf
    cases ho : (source.optionalValue v r).outcome with
    | error e =>
      constructor
      · rw [presentSuffixes, Suffixes.texts, ← hanswer]
        simp only [ho]
      · rw [presentSuffixes]
        simp only [ho]
        exact ⟨hcurrent, hrest'⟩
    | ok value =>
      obtain ⟨htexts, hcurrent'⟩ := Suffixes.AreCurrent.reads hwf hrest'
      obtain ⟨hext', hwf'⟩ := Suffixes.texts_grows hwf v rest
      rw [← htexts] at hext' hwf'
      dsimp only at htexts hcurrent' hext' hwf'
      constructor
      · rw [presentSuffixes, Suffixes.texts, ← hanswer]
        simp only [ho, ← htexts]
      · rw [presentSuffixes]
        simp only [ho]
        exact ⟨hcurrent.later (Moment.precedes_of_extends hext') hwf hwf', hcurrent'⟩

end

section

variable {v : View} {r : Registry} {a : Accessor}

/-- Reading without conversion leaves behind what is current. -/
theorem Accessor.IsCurrent.rawValue (hr : r.WellFormed) (h : a.IsCurrent (.noticed v r)) :
    (a.rawValue v r).accessor.IsCurrent (.noticed v (a.rawValue v r).registry) ∧
      r.Extends (a.rawValue v r).registry ∧ (a.rawValue v r).registry.WellFormed := by
  cases a with
  | mk s suffixes m =>
    obtain ⟨htexts, hcurrent⟩ := h.1.reads hr
    obtain ⟨hext, hwf⟩ := Suffixes.texts_grows hr v suffixes
    rw [← htexts] at hext hwf
    have hkept := h.of_presentSuffixes hr hext hwf hcurrent
    rw [Accessor.rawValue]
    dsimp only
    split
    · exact ⟨hkept, hext, hwf⟩
    · exact ⟨hkept, hext, hwf⟩

end

end LayeredConfig
