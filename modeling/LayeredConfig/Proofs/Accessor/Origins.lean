import LayeredConfig.Proofs.Accessor.Caching
import LayeredConfig.Proofs.Accessor.LookupChain

/-!
# Where results come from

A result is worked out from the key that answered along the chain (`workedOut?`).  Beside an accessor runs a trail of
its reads: the last result that was worked out with its key, and the key that a read without conversion found since.
What an accessor remembers is what its trail says, however it is read (`Trail.Explains.read`,
`Trail.Explains.readRaw`), and every result that it gives is the one on the trail (`Trail.Explains.exists_key`).
-/

namespace LayeredConfig.Accessor

/-- What an accessor looks up along its chain, if all its suffixes can be worked out. -/
def lookedUp? (v : View) (r : Registry) (a : Accessor) : Option Lookup :=
  match suffixValues v r a.suffixes with
  | .error _ => none
  | .ok values => some (lookup v a.settings (nonempties values))

/-- The result that a read works out, with the key that it is worked out from; nothing if the read serves what was kept
or fails. -/
def workedOut? (v : View) (r : Registry) (a : Accessor) : Option (Option Value × String) :=
  match kept? v a.settings a.memory, a.lookedUp? v r with
  | none, some l =>
    match (result a.settings (presentSuffixes v r a.suffixes).registry l.raw).1 with
    | .error _ => none
    | .ok value => some (value, l.key)
  | _, _ => none

/-- What the reads of an accessor came to. -/
structure Trail where
  /-- The last result that was worked out, and the key that it was worked out from. -/
  result : Option (Option Value × String)
  /-- The key of the last read without conversion since then. -/
  rawKey : Option String

namespace Trail

/-- The trail of an accessor that was not read. -/
def empty : Trail := ⟨none, none⟩

/-- The trail after a read with conversion. -/
def read (v : View) (r : Registry) (a : Accessor) (t : Trail) : Trail :=
  match a.workedOut? v r with
  | some worked => ⟨some worked, none⟩
  | none => t

/-- The trail after a read without conversion. -/
def readRaw (v : View) (r : Registry) (a : Accessor) (t : Trail) : Trail :=
  match a.lookedUp? v r with
  | some l => { t with rawKey := some l.key }
  | none => t

/-- The key of the last read that came to something. -/
def lastKey (t : Trail) : Option String := t.rawKey.or (t.result.map Prod.snd)

/-- An accessor remembers what its reads came to. -/
structure Explains (t : Trail) (m : Memory) : Prop where
  value : ∀ value key, t.result = some (value, key) → m.value = value
  resolvedKey : m.resolvedKey = t.lastKey
  unread : t.result = none → m.readAt = none

theorem explains_fresh : empty.Explains .fresh := ⟨nofun, rfl, fun _ => rfl⟩

end Trail

variable {v : View} {r : Registry} {a : Accessor} {t : Trail} {value : Option Value}

private theorem lookedUp?_eq_some {texts : List String} (h : (presentSuffixes v r a.suffixes).outcome = .ok texts) :
    a.lookedUp? v r = some (lookup v a.settings texts) := by
  rw [presentSuffixes_outcome] at h
  rw [lookedUp?]
  cases hvalues : suffixValues v r a.suffixes with
  | error e =>
    rw [hvalues] at h
    nomatch h
  | ok values =>
    rw [hvalues] at h
    obtain rfl := Except.ok.inj h
    rfl

private theorem lookedUp?_eq_none {e : ConfigError} (h : (presentSuffixes v r a.suffixes).outcome = .error e) :
    a.lookedUp? v r = none := by
  rw [presentSuffixes_outcome] at h
  rw [lookedUp?]
  cases hvalues : suffixValues v r a.suffixes with
  | error e => rfl
  | ok values =>
    rw [hvalues] at h
    nomatch h

private theorem workedOut?_of_kept (h : kept? v a.settings a.memory = some value) : a.workedOut? v r = none := by
  rw [workedOut?, h]

private theorem workedOut?_of_error {e : ConfigError} (h : (presentSuffixes v r a.suffixes).outcome = .error e) :
    a.workedOut? v r = none := by
  rw [workedOut?, lookedUp?_eq_none h]
  split
  · rename_i hlooked
    nomatch hlooked
  · rfl

private theorem workedOut?_of_ok (hkept : kept? v a.settings a.memory = none) {texts : List String}
    (h : (presentSuffixes v r a.suffixes).outcome = .ok texts) :
    a.workedOut? v r =
      match (result a.settings (presentSuffixes v r a.suffixes).registry (lookup v a.settings texts).raw).1 with
      | .error _ => none
      | .ok value => some (value, (lookup v a.settings texts).key) := by
  rw [workedOut?, hkept, lookedUp?_eq_some h]

/-- How a read with conversion can go: it works out a result, serves the one that was kept, or fails. -/
inductive Goes (v : View) (r : Registry) (a : Accessor) : Prop
  | worksOut (value : Option Value) (key : String) (hworked : a.workedOut? v r = some (value, key))
    (houtcome : (a.optionalValue v r).outcome = .ok value)
    (hmemory : (a.optionalValue v r).accessor.memory = ⟨value, some key, some v.now, v.marker⟩)
  | serves (hworked : a.workedOut? v r = none) (hread : a.memory.readAt.isSome)
    (houtcome : (a.optionalValue v r).outcome = .ok a.memory.value)
    (hmemory : (a.optionalValue v r).accessor.memory = a.memory)
  | fails (hworked : a.workedOut? v r = none) (e : ConfigError) (houtcome : (a.optionalValue v r).outcome = .error e)
    (hmemory : (a.optionalValue v r).accessor.memory = a.memory)

private theorem goes (v : View) (r : Registry) (a : Accessor) : Goes v r a := by
  obtain ⟨s, suffixes, m⟩ := a
  cases hkept : kept? v s m with
  | some value =>
    obtain ⟨hread, -, rfl⟩ := kept?_eq_some hkept
    have hserved : (mk s suffixes m).optionalValue v r = ⟨.ok m.value, mk s suffixes m, r, [], none⟩ := by
      rw [optionalValue, hkept]
    exact .serves (workedOut?_of_kept hkept) hread (by rw [hserved]; rfl) (by rw [hserved])
  | none =>
    cases hpresent : (presentSuffixes v r suffixes).outcome with
    | error e =>
      have hfailed : (mk s suffixes m).optionalValue v r =
          ⟨.error e, mk s (presentSuffixes v r suffixes).suffixes m, (presentSuffixes v r suffixes).registry,
            (presentSuffixes v r suffixes).asked, none⟩ := by
        simp only [optionalValue, hkept, hpresent]
      exact .fails (workedOut?_of_error hpresent) e (by rw [hfailed]) (by rw [hfailed]; rfl)
    | ok texts =>
      have hworked := workedOut?_of_ok (a := mk s suffixes m) hkept hpresent
      dsimp only [settings, Accessor.suffixes] at hworked
      cases hresult : result s (presentSuffixes v r suffixes).registry (lookup v s texts).raw with
      | mk outcome r' =>
        rw [hresult] at hworked
        cases outcome with
        | error e =>
          refine .fails hworked e ?_ ?_
          · simp only [optionalValue, hkept, hpresent, hresult]
          · simp only [optionalValue, hkept, hpresent, hresult]
            rfl
        | ok value =>
          refine .worksOut value _ hworked ?_ ?_
          · simp only [optionalValue, hkept, hpresent, hresult]
          · simp only [optionalValue, hkept, hpresent, hresult]
            rfl

namespace Trail

/-- A read with conversion is explained by its trail. -/
theorem Explains.read (h : t.Explains a.memory) (v : View) (r : Registry) :
    (t.read v r a).Explains (a.optionalValue v r).accessor.memory := by
  unfold Trail.read
  cases goes v r a with
  | worksOut value key hworked houtcome hmemory =>
    rw [hworked, hmemory]
    refine ⟨fun value' key' heq => ?_, rfl, nofun⟩
    exact (Prod.mk.inj (Option.some.inj heq)).1
  | serves hworked hread houtcome hmemory =>
    rw [hworked, hmemory]
    exact h
  | fails hworked e houtcome hmemory =>
    rw [hworked, hmemory]
    exact h

/-- A read without conversion changes the key and nothing else. -/
theorem Explains.readRaw (h : t.Explains a.memory) (v : View) (r : Registry) :
    (t.readRaw v r a).Explains (a.rawValue v r).accessor.memory := by
  unfold Trail.readRaw
  cases hpresent : (presentSuffixes v r a.suffixes).outcome with
  | error e =>
    rw [lookedUp?_eq_none hpresent]
    obtain ⟨s, suffixes, m⟩ := a
    dsimp only [Accessor.suffixes] at hpresent
    simp only [rawValue, hpresent]
    exact h
  | ok texts =>
    rw [lookedUp?_eq_some hpresent]
    obtain ⟨s, suffixes, m⟩ := a
    dsimp only [Accessor.suffixes] at hpresent
    simp only [rawValue, hpresent]
    exact ⟨h.value, rfl, h.unread⟩

/-- Every result that an accessor gives is the last one that was worked out, from a key of its own. -/
theorem Explains.exists_key (h : t.Explains a.memory) (houtcome : (a.optionalValue v r).outcome = .ok value) :
    ∃ key, (t.read v r a).result = some (value, key) := by
  unfold Trail.read
  cases goes v r a with
  | worksOut value' key hworked houtcome' _ =>
    obtain rfl := Except.ok.inj (houtcome'.symm.trans houtcome)
    rw [hworked]
    exact ⟨key, rfl⟩
  | serves hworked hread houtcome' _ =>
    rw [hworked]
    cases hresult : t.result with
    | none =>
      rw [h.unread hresult] at hread
      nomatch hread
    | some worked =>
      obtain ⟨value', key⟩ := worked
      rw [← Except.ok.inj (houtcome'.symm.trans houtcome), h.value value' key hresult]
      exact ⟨key, rfl⟩
  | fails _ e houtcome' _ => nomatch houtcome'.symm.trans houtcome

end Trail

end LayeredConfig.Accessor
