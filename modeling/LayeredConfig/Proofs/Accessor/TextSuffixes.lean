import LayeredConfig.Proofs.Accessor.Nesting
import LayeredConfig.Proofs.Converter.TypeNames

/-!
# Suffixes are plain texts

Only an accessor of plain texts can be a suffix of another one, and none that was built has a converter of its own that
looks at the names of types (`areTextual_of_build`).  So with a registry that has a converter of texts, and one that
does not look at those names either, getting the suffixes asks for nothing that was not there, and what they are does
not depend on which types are known (`Suffixes.AreTextual.presentSuffixes_eq`).
-/

namespace LayeredConfig

open Accessor (presentSuffixes kept?)

/-- Whether an accessor's own converter, if it has one, does not look at the names of types. -/
def Accessor.Settings.IgnoresNames (s : Accessor.Settings) : Prop := ∀ c, s.converter = some c → c.readsNames = false

mutual

/-- An accessor of texts that do not depend on which types are known. -/
def Accessor.IsTextual : Accessor → Prop
  | .mk s suffixes _ => s.type = .text ∧ s.IgnoresNames ∧ suffixes.AreTextual

/-- All accessors of the suffixes are of this kind. -/
def Suffixes.AreTextual : Suffixes → Prop
  | .nil => True
  | .literal _ rest => rest.AreTextual
  | .resolved source rest => source.IsTextual ∧ rest.AreTextual

end

private theorem Suffixes.areTextual_of_literal {suffixes : Suffixes} (h : suffixes.all = []) : suffixes.AreTextual := by
  cases suffixes with
  | nil => trivial
  | literal text rest =>
    have hrest : rest.all = [] := h
    exact show rest.AreTextual from areTextual_of_literal hrest
  | resolved source rest =>
    cases source with
    | mk s inner m => cases h

/-! ### Building -/

namespace Suffixes

private theorem areTextual_addLiteral {suffixes : Suffixes} (h : suffixes.AreTextual) (text : String) :
    (suffixes.addLiteral text).AreTextual := by
  cases suffixes with
  | nil => trivial
  | literal t rest =>
    have hrest : rest.AreTextual := h
    exact show (rest.addLiteral text).AreTextual from areTextual_addLiteral hrest text
  | resolved source rest => exact ⟨h.1, areTextual_addLiteral h.2 text⟩

private theorem areTextual_addResolved {suffixes : Suffixes} (h : suffixes.AreTextual) {added : Accessor}
    (hadded : added.IsTextual) : (suffixes.addResolved added).AreTextual := by
  cases suffixes with
  | nil => exact ⟨hadded, trivial⟩
  | literal t rest =>
    have hrest : rest.AreTextual := h
    exact show (rest.addResolved added).AreTextual from areTextual_addResolved hrest hadded
  | resolved source rest => exact ⟨h.1, areTextual_addResolved h.2 hadded⟩

end Suffixes

namespace Accessor

/-- What every accessor is that was built. -/
private def Plain (a : Accessor) : Prop := a.settings.IgnoresNames ∧ a.suffixes.AreTextual

variable {v : View} {r r' : Registry} {a b : Accessor} {s : Settings}

private theorem plain_start (key : String) : (start key).Plain := ⟨fun _ => nofun, trivial⟩

private theorem Plain.addSuffix (h : a.Plain) {add : Suffixes → Suffixes} (hadd : (add a.suffixes).AreTextual) :
    (a.addSuffix add).Plain := by
  unfold Accessor.addSuffix
  split
  · exact h
  · exact ⟨h.1, hadd⟩

private theorem Plain.addSource (h : a.Plain) (hb : b.Plain) : (a.addSource b).Plain := by
  unfold Accessor.addSource
  split
  · rename_i htext
    refine h.addSuffix (Suffixes.areTextual_addResolved h.2 ?_)
    cases b with
    | mk s suffixes m =>
      rw [isText, Bool.and_eq_true, beq_iff_eq] at htext
      exact ⟨htext.1, hb⟩
  · exact h

private theorem Plain.withTextDefault (h : a.Plain) {raw : String}
    (hb : (a.withTextDefault v r raw).outcome = .ok b) : b.Plain := by
  unfold Accessor.withTextDefault at hb
  split at hb
  · nomatch hb
  · dsimp only at hb
    split at hb
    · nomatch hb
    · obtain rfl := Except.ok.inj hb
      exact h

mutual

private theorem Plain.step {v : View} {r : Registry} {a b : Accessor} (h : a.Plain) {taken : BuildStep}
    (hb : (step v r a taken).outcome = .ok b) : b.Plain := by
  cases taken with
  | textDefault raw => exact h.withTextDefault hb
  | type t =>
    obtain rfl := Except.ok.inj hb
    exact ⟨fun _ => nofun, h.2⟩
  | suffix text =>
    obtain rfl := Except.ok.inj hb
    exact h.addSuffix (Suffixes.areTextual_addLiteral h.2 text)
  | suffixFrom key steps =>
    rw [Accessor.step] at hb
    split at hb
    · nomatch hb
    · rename_i source hsource
      obtain rfl := Except.ok.inj hb
      exact h.addSource (Plain.applySteps (plain_start key) hsource)
  | converter recipe =>
    obtain rfl := Except.ok.inj hb
    -- A recipe makes its texts from one another, without a look at types.
    refine ⟨fun c hc => ?_, h.2⟩
    obtain rfl := Option.some.inj hc
    rfl
  | list | set | default | lifetime | expands =>
    obtain rfl := Except.ok.inj hb
    exact h

private theorem Plain.applySteps {v : View} {r : Registry} {a b : Accessor} (h : a.Plain) {steps : BuildSteps}
    (hb : (applySteps v r a steps).outcome = .ok b) : b.Plain := by
  cases steps with
  | nil =>
    obtain rfl := Except.ok.inj hb
    exact h
  | cons taken rest =>
    rw [Accessor.applySteps] at hb
    dsimp only at hb
    split at hb
    · nomatch hb
    · rename_i c hc
      exact Plain.applySteps (Plain.step h hc) hb

end

/-- The suffixes of what was built are texts. -/
theorem areTextual_of_build {key : String} {steps : List BuildStep} (h : (build v r key steps).outcome = .ok a) :
    a.suffixes.AreTextual :=
  (Plain.applySteps (plain_start key) h).2

end Accessor

/-! ### Reading -/

section

variable {v : View} {r r' : Registry}

mutual

private theorem Accessor.IsTextual.optionalValue (v : View) (r : Registry) {a : Accessor} (h : a.IsTextual) :
    (a.optionalValue v r).accessor.IsTextual := by
  cases a with
  | mk s suffixes m =>
    obtain ⟨htype, hnames, hsuffixes⟩ := h
    have hmade (m' : Accessor.Memory) : (Accessor.mk s (presentSuffixes v r suffixes).suffixes m').IsTextual :=
      ⟨htype, hnames, Suffixes.AreTextual.presentSuffixes v r hsuffixes⟩
    rw [Accessor.optionalValue]
    split
    · exact ⟨htype, hnames, hsuffixes⟩
    · dsimp only
      split
      · exact hmade m
      · split
        · exact hmade m
        · exact hmade _

/-- Suffixes stay texts when they are read. -/
theorem Suffixes.AreTextual.presentSuffixes (v : View) (r : Registry) {suffixes : Suffixes} (h : suffixes.AreTextual) :
    (presentSuffixes v r suffixes).suffixes.AreTextual := by
  cases suffixes with
  | nil => trivial
  | literal text rest =>
    have hrest : rest.AreTextual := h
    rw [Accessor.presentSuffixes]
    exact show (Accessor.presentSuffixes v r rest).suffixes.AreTextual from
      Suffixes.AreTextual.presentSuffixes v r hrest
  | resolved source rest =>
    obtain ⟨hsource, hrest⟩ := h
    have hsource' := Accessor.IsTextual.optionalValue v r hsource
    rw [Accessor.presentSuffixes]
    dsimp only
    split
    · exact ⟨hsource', hrest⟩
    · exact ⟨hsource', Suffixes.AreTextual.presentSuffixes v (source.optionalValue v r).registry hrest⟩

end

theorem Accessor.areTextual_optionalValue {a : Accessor} (h : a.suffixes.AreTextual) (v : View) (r : Registry) :
    (a.optionalValue v r).accessor.suffixes.AreTextual := by
  cases a with
  | mk s suffixes m =>
    have hsuffixes : suffixes.AreTextual := h
    rw [Accessor.optionalValue]
    split
    · exact hsuffixes
    · dsimp only
      split
      · exact hsuffixes.presentSuffixes v r
      · split <;> exact hsuffixes.presentSuffixes v r

theorem Accessor.areTextual_rawValue {a : Accessor} (h : a.suffixes.AreTextual) (v : View) (r : Registry) :
    (a.rawValue v r).accessor.suffixes.AreTextual := by
  cases a with
  | mk s suffixes m =>
    have hsuffixes : suffixes.AreTextual := h
    rw [Accessor.rawValue]
    dsimp only
    split <;> exact hsuffixes.presentSuffixes v r

/-- A registry that has a converter of texts, and one that does not look at the names of types. -/
def Registry.ReadsTexts (r : Registry) : Prop := ∃ g, r.active? .text = some g ∧ g.converter.readsNames = false

/-- A text is converted alike with all such registries, which stay as they are. -/
private theorem Accessor.decode_text {s : Accessor.Settings} (htype : s.type = .text) (hnames : s.IgnoresNames)
    (hr : r.ReadsTexts) (hsame : r'.active? .text = r.active? .text) (raw : String) :
    ∃ outcome, decode s r raw = (outcome, r) ∧ decode s r' raw = (outcome, r') := by
  have hconvert {c : Converter} (hc : c.readsNames = false) :
      c.convert r'.names s.type = c.convert r.names s.type :=
    funext (Converter.convert_of_not_readsNames hc r.names r'.names s.type)
  unfold decode
  cases hown : s.converter with
  | some c =>
    dsimp only
    rw [hconvert (hnames c hown)]
    exact ⟨_, rfl, rfl⟩
  | none =>
    obtain ⟨g, hg, hignores⟩ := hr
    rw [hg] at hsame
    have hresolve {q : Registry} (hq : q.active? .text = some g) : q.resolve s.type = (.ok g.converter, q) := by
      rw [htype, Registry.resolve.eq_def, hq]
    dsimp only
    rw [hresolve hg, hresolve hsame]
    dsimp only
    rw [hconvert hignores]
    exact ⟨_, rfl, rfl⟩

mutual

private theorem Accessor.IsTextual.optionalValue_eq {v : View} {r r' : Registry} (hr : r.ReadsTexts)
    (hsame : r'.active? .text = r.active? .text) {a : Accessor} (h : a.IsTextual) :
    a.optionalValue v r' = { a.optionalValue v r with registry := r' } ∧ (a.optionalValue v r).registry = r := by
  cases a with
  | mk s suffixes m =>
    obtain ⟨htype, hnames, hsuffixes⟩ := h
    obtain ⟨hother, hown⟩ := Suffixes.AreTextual.presentSuffixes_eq (v := v) hr hsame hsuffixes
    unfold Accessor.optionalValue
    rw [hother]
    generalize Accessor.presentSuffixes v r suffixes = p at hown ⊢
    obtain ⟨outcome, suffixes', _, asked⟩ := p
    obtain rfl : _ = r := hown
    cases kept? v s m with
    | some value => exact ⟨rfl, rfl⟩
    | none =>
      cases outcome with
      | error e => exact ⟨rfl, rfl⟩
      | ok texts =>
        dsimp only
        unfold Accessor.result
        cases (Accessor.lookup v s texts).raw with
        | none => exact ⟨rfl, rfl⟩
        | some raw =>
          obtain ⟨outcome, hdecode, hdecode'⟩ := Accessor.decode_text htype hnames hr hsame raw
          dsimp only
          rw [hdecode, hdecode']
          cases outcome with
          | error e => exact ⟨rfl, rfl⟩
          | ok value => exact ⟨rfl, rfl⟩

/-- Such suffixes are got without asking for anything new, whichever types are known. -/
theorem Suffixes.AreTextual.presentSuffixes_eq {v : View} {r r' : Registry} (hr : r.ReadsTexts)
    (hsame : r'.active? .text = r.active? .text) {suffixes : Suffixes} (h : suffixes.AreTextual) :
    Accessor.presentSuffixes v r' suffixes = { Accessor.presentSuffixes v r suffixes with registry := r' } ∧
      (Accessor.presentSuffixes v r suffixes).registry = r := by
  cases suffixes with
  | nil => exact ⟨rfl, rfl⟩
  | literal text rest =>
    have hrest : rest.AreTextual := h
    obtain ⟨hother, hown⟩ := Suffixes.AreTextual.presentSuffixes_eq (v := v) hr hsame hrest
    rw [Accessor.presentSuffixes, Accessor.presentSuffixes, hother]
    exact ⟨rfl, hown⟩
  | resolved source rest =>
    obtain ⟨hread, hleft⟩ := Accessor.IsTextual.optionalValue_eq (v := v) hr hsame h.1
    obtain ⟨hother, hown⟩ := Suffixes.AreTextual.presentSuffixes_eq (v := v) hr hsame h.2
    rw [Accessor.presentSuffixes, Accessor.presentSuffixes, hread]
    generalize source.optionalValue v r = read at hleft ⊢
    obtain ⟨outcome, source', _, asked, change⟩ := read
    obtain rfl : _ = r := hleft
    dsimp only
    cases outcome with
    | error e => exact ⟨rfl, rfl⟩
    | ok value =>
      dsimp only
      rw [hother]
      exact ⟨rfl, hown⟩

end

end

end LayeredConfig
