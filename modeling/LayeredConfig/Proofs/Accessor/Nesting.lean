import LayeredConfig.Accessor.Builder

/-!
# Accessors inside accessors

A suffix may come from another accessor, which may have suffixes of its own.  All of them are built in the same way and
read together.  So what holds of the number of suffixes and the memory of each of them (`Throughout`) is kept by reads
and by building, if it is kept for a single accessor.  In particular none has more suffixes than an accessor takes
(`Fits`), and none remembers a marker that its engine did not have yet (`RemembersUpTo`).
-/

namespace LayeredConfig

open Accessor (maxSuffixes presentSuffixes remember)

mutual

/-- The accessor and those that its suffixes come from, at any depth. -/
def Accessor.all : Accessor → List Accessor
  | .mk s suffixes m => .mk s suffixes m :: suffixes.all

/-- The accessors that suffixes come from, at any depth. -/
def Suffixes.all : Suffixes → List Accessor
  | .nil => []
  | .literal _ rest => rest.all
  | .resolved source rest => source.all ++ rest.all

end

/-- The suffixes that are given as texts and are not empty. -/
def Suffixes.literals : Suffixes → List String
  | .nil => []
  | .literal text rest => Accessor.consPresent (some text) rest.literals
  | .resolved _ rest => rest.literals

/-- Without accessors inside nothing has to be read to get the suffixes. -/
theorem Suffixes.presentSuffixes_of_literal {suffixes : Suffixes} (h : suffixes.all = []) (v : View) (r : Registry) :
    presentSuffixes v r suffixes = ⟨.ok suffixes.literals, suffixes, r, []⟩ := by
  cases suffixes with
  | nil => rfl
  | literal text rest =>
    have hrest : rest.all = [] := h
    rw [presentSuffixes, presentSuffixes_of_literal hrest v r]
    rfl
  | resolved source rest =>
    cases source with
    | mk s inner m => cases h

/-- All of these accessors have numbers of suffixes and memories of some kind. -/
def Accessor.Throughout (Q : Nat → Accessor.Memory → Prop) (a : Accessor) : Prop :=
  ∀ b ∈ a.all, Q b.suffixes.size b.memory

/-- All accessors of the suffixes have numbers of suffixes and memories of some kind. -/
def Suffixes.Throughout (Q : Nat → Accessor.Memory → Prop) (suffixes : Suffixes) : Prop :=
  ∀ b ∈ suffixes.all, Q b.suffixes.size b.memory

/-- No accessor among them has more suffixes than it takes. -/
def Accessor.Fits (a : Accessor) : Prop := ∀ b ∈ a.all, b.suffixes.size ≤ maxSuffixes

/-- None of them remembers a marker that is greater. -/
def Accessor.RemembersUpTo (marker : Nat) (a : Accessor) : Prop := ∀ b ∈ a.all, b.memory.marker ≤ marker

section

variable {Q : Nat → Accessor.Memory → Prop} {v : View} {r : Registry} {s : Accessor.Settings} {m : Accessor.Memory}
  {suffixes rest : Suffixes} {a source : Accessor}

private theorem Accessor.throughout_mk :
    (Accessor.mk s suffixes m).Throughout Q ↔ Q suffixes.size m ∧ suffixes.Throughout Q := by
  rw [Throughout, Accessor.all, List.forall_mem_cons]
  rfl

private theorem Accessor.Throughout.parts (h : a.Throughout Q) :
    Q a.suffixes.size a.memory ∧ a.suffixes.Throughout Q := by
  cases a with
  | mk s suffixes m => exact throughout_mk.1 h

private theorem Suffixes.throughout_resolved :
    (Suffixes.resolved source rest).Throughout Q ↔ source.Throughout Q ∧ rest.Throughout Q := by
  rw [Throughout, Suffixes.all, List.forall_mem_append]
  rfl

/-! ### Reads -/

mutual

private theorem Accessor.Throughout.optionalValue (v : View) (r : Registry)
    (hread : ∀ n m key value, Q n m → Q n (remember v key value)) {a : Accessor} (h : a.Throughout Q) :
    (a.optionalValue v r).accessor.Throughout Q := by
  cases a with
  | mk s suffixes m =>
    obtain ⟨hown, hinner⟩ := Accessor.throughout_mk.1 h
    obtain ⟨hinner', hsize⟩ := Suffixes.Throughout.presentSuffixes v r hread hinner
    have hmade {m' : Accessor.Memory} (hm' : Q suffixes.size m') :
        (Accessor.mk s (presentSuffixes v r suffixes).suffixes m').Throughout Q :=
      Accessor.throughout_mk.2 ⟨hsize ▸ hm', hinner'⟩
    rw [Accessor.optionalValue]
    split
    · exact h
    · dsimp only
      split
      · exact hmade hown
      · split
        · exact hmade hown
        · exact hmade (hread _ _ _ _ hown)

private theorem Suffixes.Throughout.presentSuffixes (v : View) (r : Registry)
    (hread : ∀ n m key value, Q n m → Q n (remember v key value)) {suffixes : Suffixes} (h : suffixes.Throughout Q) :
    (presentSuffixes v r suffixes).suffixes.Throughout Q ∧
      (presentSuffixes v r suffixes).suffixes.size = suffixes.size := by
  cases suffixes with
  | nil => exact ⟨h, rfl⟩
  | literal text rest =>
    have hrest : rest.Throughout Q := h
    obtain ⟨hinner, hsize⟩ := Suffixes.Throughout.presentSuffixes v r hread hrest
    rw [Accessor.presentSuffixes]
    exact ⟨hinner, congrArg (· + 1) hsize⟩
  | resolved source rest =>
    obtain ⟨hsource, hrest⟩ := Suffixes.throughout_resolved.1 h
    have hsource' := Accessor.Throughout.optionalValue v r hread hsource
    rw [Accessor.presentSuffixes]
    dsimp only
    split
    · exact ⟨Suffixes.throughout_resolved.2 ⟨hsource', hrest⟩, rfl⟩
    · obtain ⟨hinner, hsize⟩ :=
        Suffixes.Throughout.presentSuffixes v (source.optionalValue v r).registry hread hrest
      exact ⟨Suffixes.throughout_resolved.2 ⟨hsource', hinner⟩, congrArg (· + 1) hsize⟩

end

private theorem Accessor.Throughout.rawValue (v : View) (r : Registry)
    (hread : ∀ n m key value, Q n m → Q n (remember v key value))
    (hraw : ∀ n m key, Q n m → Q n { m with resolvedKey := some key }) (h : a.Throughout Q) :
    (a.rawValue v r).accessor.Throughout Q := by
  cases a with
  | mk s suffixes m =>
    obtain ⟨hown, hinner⟩ := Accessor.throughout_mk.1 h
    obtain ⟨hinner', hsize⟩ := hinner.presentSuffixes v r hread
    have hmade {m' : Accessor.Memory} (hm' : Q suffixes.size m') :
        (Accessor.mk s (presentSuffixes v r suffixes).suffixes m').Throughout Q :=
      Accessor.throughout_mk.2 ⟨hsize ▸ hm', hinner'⟩
    rw [Accessor.rawValue]
    dsimp only
    split
    · exact hmade hown
    · exact hmade (hraw _ _ _ hown)

end

/-! ### Building -/

/-- What holds of a new accessor, and stays when it forgets and when it is given a suffix that it has room for. -/
structure Accessor.Buildable (Q : Nat → Accessor.Memory → Prop) : Prop where
  start : Q 0 .fresh
  fresh : ∀ n m, Q n m → Q n .fresh
  add : ∀ n m, n < maxSuffixes → Q n m → Q (n + 1) m

variable {Q : Nat → Accessor.Memory → Prop}

namespace Suffixes

private theorem Throughout.addLiteral {suffixes : Suffixes} (h : suffixes.Throughout Q) (text : String) :
    (suffixes.addLiteral text).Throughout Q ∧ (suffixes.addLiteral text).size = suffixes.size + 1 := by
  cases suffixes with
  | nil => exact ⟨h, rfl⟩
  | literal t rest =>
    have hrest : rest.Throughout Q := h
    obtain ⟨hinner, hsize⟩ := Throughout.addLiteral hrest text
    exact ⟨hinner, congrArg (· + 1) hsize⟩
  | resolved source rest =>
    obtain ⟨hsource, hrest⟩ := throughout_resolved.1 h
    obtain ⟨hinner, hsize⟩ := Throughout.addLiteral hrest text
    exact ⟨throughout_resolved.2 ⟨hsource, hinner⟩, congrArg (· + 1) hsize⟩

private theorem Throughout.addResolved {suffixes : Suffixes} (h : suffixes.Throughout Q) {added : Accessor}
    (hadded : added.Throughout Q) :
    (suffixes.addResolved added).Throughout Q ∧ (suffixes.addResolved added).size = suffixes.size + 1 := by
  cases suffixes with
  | nil => exact ⟨throughout_resolved.2 ⟨hadded, h⟩, rfl⟩
  | literal t rest =>
    have hrest : rest.Throughout Q := h
    obtain ⟨hinner, hsize⟩ := Throughout.addResolved hrest hadded
    exact ⟨hinner, congrArg (· + 1) hsize⟩
  | resolved source rest =>
    obtain ⟨hsource, hrest⟩ := throughout_resolved.1 h
    obtain ⟨hinner, hsize⟩ := Throughout.addResolved hrest hadded
    exact ⟨throughout_resolved.2 ⟨hsource, hinner⟩, congrArg (· + 1) hsize⟩

end Suffixes

namespace Accessor

variable {v : View} {r : Registry} {a b : Accessor}

private theorem Throughout.modifySettings (h : a.Throughout Q) (f : Settings → Settings) :
    (a.modifySettings f).Throughout Q := throughout_mk.2 h.parts

private theorem Throughout.reshape (hQ : Buildable Q) (h : a.Throughout Q) (t : ValueType) (shape : Shape)
    (converter : Option Converter) : (a.reshape t shape converter).Throughout Q :=
  throughout_mk.2 (h.parts.imp_left (hQ.fresh _ _))

private theorem Throughout.addSuffix (hQ : Buildable Q) (h : a.Throughout Q) {add : Suffixes → Suffixes}
    (hadd : (add a.suffixes).Throughout Q ∧ (add a.suffixes).size = a.suffixes.size + 1) :
    (a.addSuffix add).Throughout Q := by
  unfold Accessor.addSuffix
  split
  · exact h
  · rename_i hroom
    have hown : Q (a.suffixes.size + 1) a.memory := hQ.add _ _ (by omega) h.parts.1
    exact throughout_mk.2 ⟨hadd.2 ▸ hown, hadd.1⟩

private theorem Throughout.addSource (hQ : Buildable Q) (h : a.Throughout Q) (hb : b.Throughout Q) :
    (a.addSource b).Throughout Q := by
  unfold Accessor.addSource
  split
  · exact h.addSuffix hQ (h.parts.2.addResolved hb)
  · exact h

private theorem throughout_start (hQ : Buildable Q) (key : String) : (start key).Throughout Q :=
  throughout_mk.2 ⟨hQ.start, by simp [Suffixes.Throughout, Suffixes.all]⟩

private theorem Throughout.withTextDefault (h : a.Throughout Q) {raw : String}
    (hb : (a.withTextDefault v r raw).outcome = .ok b) : b.Throughout Q := by
  unfold Accessor.withTextDefault at hb
  split at hb
  · nomatch hb
  · dsimp only at hb
    split at hb
    · nomatch hb
    · obtain rfl := Except.ok.inj hb
      exact h.modifySettings _

mutual

private theorem Throughout.step (hQ : Buildable Q) {v : View} {r : Registry} {a b : Accessor} (h : a.Throughout Q)
    {taken : BuildStep} (hb : (step v r a taken).outcome = .ok b) : b.Throughout Q := by
  cases taken with
  | textDefault raw => exact h.withTextDefault hb
  | type t =>
    obtain rfl := Except.ok.inj hb
    exact h.reshape hQ _ _ _
  | list | set =>
    obtain rfl := Except.ok.inj hb
    exact h.reshape hQ _ _ _
  | suffix text =>
    obtain rfl := Except.ok.inj hb
    exact h.addSuffix hQ (h.parts.2.addLiteral text)
  | suffixFrom key steps =>
    rw [Accessor.step] at hb
    split at hb
    · nomatch hb
    · rename_i source hsource
      obtain rfl := Except.ok.inj hb
      have hsource' : source.Throughout Q := Throughout.applySteps hQ (throughout_start hQ key) hsource
      exact h.addSource hQ hsource'
  | default | converter | lifetime | expands =>
    obtain rfl := Except.ok.inj hb
    exact h.modifySettings _

private theorem Throughout.applySteps (hQ : Buildable Q) {v : View} {r : Registry} {a b : Accessor} (h : a.Throughout Q)
    {steps : BuildSteps} (hb : (applySteps v r a steps).outcome = .ok b) : b.Throughout Q := by
  cases steps with
  | nil =>
    obtain rfl := Except.ok.inj hb
    exact h
  | cons taken rest =>
    rw [Accessor.applySteps] at hb
    dsimp only at hb
    split at hb
    · nomatch hb
    · rename_i c hc
      exact Throughout.applySteps hQ (Throughout.step hQ h hc) hb

end

private theorem throughout_of_build (hQ : Buildable Q) {key : String} {steps : List BuildStep}
    (h : (build v r key steps).outcome = .ok a) : a.Throughout Q :=
  Throughout.applySteps hQ (throughout_start hQ key) h

/-! ### Room for suffixes -/

theorem Fits.optionalValue (v : View) (r : Registry) (h : a.Fits) : (a.optionalValue v r).accessor.Fits :=
  Throughout.optionalValue (Q := fun n _ => n ≤ maxSuffixes) v r (fun _ _ _ _ hn => hn) h

theorem Fits.rawValue (v : View) (r : Registry) (h : a.Fits) : (a.rawValue v r).accessor.Fits :=
  Throughout.rawValue (Q := fun n _ => n ≤ maxSuffixes) v r (fun _ _ _ _ hn => hn) (fun _ _ _ hn => hn) h

/-- What was built has room for its suffixes. -/
theorem fits_of_build {key : String} {steps : List BuildStep} (h : (build v r key steps).outcome = .ok a) : a.Fits :=
  throughout_of_build (Q := fun n _ => n ≤ maxSuffixes) ⟨Nat.zero_le _, fun _ _ hn => hn, fun _ _ hlt _ => hlt⟩ h

/-! ### Remembered markers -/

theorem RemembersUpTo.mono {marker marker' : Nat} (h : a.RemembersUpTo marker) (hle : marker ≤ marker') :
    a.RemembersUpTo marker' := fun b hb => Nat.le_trans (h b hb) hle

/-- A read remembers the marker of its own view. -/
theorem RemembersUpTo.optionalValue (r : Registry) (h : a.RemembersUpTo v.marker) :
    (a.optionalValue v r).accessor.RemembersUpTo v.marker :=
  Throughout.optionalValue (Q := fun _ m => m.marker ≤ v.marker) v r (fun _ _ _ _ _ => Nat.le_refl _) h

theorem RemembersUpTo.rawValue (r : Registry) (h : a.RemembersUpTo v.marker) :
    (a.rawValue v r).accessor.RemembersUpTo v.marker :=
  Throughout.rawValue (Q := fun _ m => m.marker ≤ v.marker) v r (fun _ _ _ _ _ => Nat.le_refl _) (fun _ _ _ hm => hm) h

/-- What was built has not been read. -/
theorem remembersUpTo_of_build {key : String} {steps : List BuildStep} (h : (build v r key steps).outcome = .ok a)
    (marker : Nat) : a.RemembersUpTo marker :=
  throughout_of_build (Q := fun _ m => m.marker ≤ marker)
    ⟨Nat.zero_le _, fun _ _ _ => Nat.zero_le _, fun _ _ _ hm => hm⟩ h

/-- With a greater marker than it remembers nothing is kept. -/
theorem RemembersUpTo.kept?_eq_none {marker : Nat} (h : a.RemembersUpTo marker) (hlt : marker < v.marker) :
    ∀ b ∈ a.all, kept? v b.settings b.memory = none := by
  intro b hb
  have hmarker : b.memory.marker ≠ v.marker := Nat.ne_of_lt (Nat.lt_of_le_of_lt (h b hb) hlt)
  rw [kept?]
  split
  · exact if_neg fun hkept => hmarker hkept.1
  · rfl

end Accessor

end LayeredConfig
