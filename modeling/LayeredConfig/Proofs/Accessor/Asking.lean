import LayeredConfig.Accessor.Builder
import LayeredConfig.Proofs.Registry.Discovery

/-!
# Reading asks for converters

Reading accessors and building them asks a registry for converters, whatever their suffixes are, and does nothing else
to it (`asked_optionalValue`, `asked_rawValue`, `asked_build`).  In particular it registers nothing.
-/

namespace LayeredConfig

namespace View

theorem asked_optionalValue (v : View) (r : Registry) (t : ValueType) (key : String) :
    r.Asked (v.optionalValue r t key).2 :=
  Registry.asked_convert r t (v.present? key)

theorem asked_value (v : View) (r : Registry) (t : ValueType) (key : String) : r.Asked (v.value r t key).2 :=
  asked_optionalValue v r t key

end View

namespace Accessor

theorem asked_decode (s : Settings) (r : Registry) (raw : String) : r.Asked (decode s r raw).2 := by
  unfold decode
  cases s.converter with
  | some c => exact .refl
  | none =>
    have hresolve := Registry.asked_resolve r s.type
    generalize r.resolve s.type = p at hresolve
    obtain ⟨_ | c, r'⟩ := p
    · exact hresolve
    · exact hresolve

theorem asked_result (s : Settings) (r : Registry) (raw : Option String) : r.Asked (result s r raw).2 := by
  cases raw with
  | none => exact .refl
  | some raw => exact asked_decode s r raw

mutual

theorem asked_optionalValue (v : View) (r : Registry) (a : Accessor) : r.Asked (a.optionalValue v r).registry := by
  cases a with
  | mk s suffixes m =>
    have hsuffixes := asked_presentSuffixes v r suffixes
    unfold optionalValue
    split
    · exact .refl
    · dsimp only
      split
      · exact hsuffixes
      · rename_i texts htexts
        have hresult := asked_result s (presentSuffixes v r suffixes).registry (lookup v s texts).raw
        generalize result s (presentSuffixes v r suffixes).registry (lookup v s texts).raw = p at hresult
        obtain ⟨_ | value, r'⟩ := p
        · exact hsuffixes.trans hresult
        · exact hsuffixes.trans hresult

theorem asked_presentSuffixes (v : View) (r : Registry) (suffixes : Suffixes) :
    r.Asked (presentSuffixes v r suffixes).registry := by
  cases suffixes with
  | nil => exact .refl
  | literal text rest => exact asked_presentSuffixes v r rest
  | resolved source rest =>
    have hsource := asked_optionalValue v r source
    unfold presentSuffixes
    dsimp only
    split
    · exact hsource
    · exact hsource.trans (asked_presentSuffixes v _ rest)

end

theorem asked_rawValue (v : View) (r : Registry) (a : Accessor) : r.Asked (a.rawValue v r).registry := by
  cases a with
  | mk s suffixes m =>
    have hsuffixes := asked_presentSuffixes v r suffixes
    unfold rawValue
    dsimp only
    split
    · exact hsuffixes
    · exact hsuffixes

/-! ### Building -/

private theorem asked_withTextDefault (v : View) (r : Registry) (a : Accessor) (raw : String) :
    r.Asked (a.withTextDefault v r raw).registry := by
  unfold withTextDefault
  split
  · exact .refl
  · have hdecode := asked_decode a.settings r (process v a.settings raw).text
    dsimp only
    generalize decode a.settings r (process v a.settings raw).text = p at hdecode
    obtain ⟨_ | value, r'⟩ := p
    · exact hdecode
    · exact hdecode

mutual

theorem asked_step (v : View) (r : Registry) (a : Accessor) (taken : BuildStep) :
    r.Asked (step v r a taken).registry := by
  cases taken with
  | textDefault raw => exact asked_withTextDefault v r a raw
  | suffixFrom key steps =>
    have hinner := asked_applySteps v r (start key) steps
    unfold step
    dsimp only
    split
    · exact hinner
    · exact hinner
  | _ => exact .refl

private theorem asked_applySteps (v : View) (r : Registry) (a : Accessor) (steps : BuildSteps) :
    r.Asked (applySteps v r a steps).registry := by
  cases steps with
  | nil => exact .refl
  | cons first rest =>
    have hfirst := asked_step v r a first
    unfold applySteps
    dsimp only
    split
    · exact hfirst
    · exact hfirst.trans (asked_applySteps v _ _ rest)

end

theorem asked_build (v : View) (r : Registry) (key : String) (steps : List BuildStep) :
    r.Asked (build v r key steps).registry :=
  asked_applySteps v r (start key) (.ofList steps)

end Accessor

end LayeredConfig
