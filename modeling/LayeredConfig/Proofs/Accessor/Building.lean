import LayeredConfig.Proofs.Accessor.Caching

/-!
# Accessors that were just built

Building makes registries grow, since a default may be converted, but no accessor keeps a result before it is read.
So what was built is current at any moment (`build_isSound`).
-/

namespace LayeredConfig

mutual

/-- Neither the accessor nor one of its suffixes has kept a result. -/
def Accessor.IsUnread : Accessor → Prop
  | .mk _ suffixes m => suffixes.AreUnread ∧ m.readAt = none

/-- No accessor of the suffixes has kept a result. -/
def Suffixes.AreUnread : Suffixes → Prop
  | .nil => True
  | .literal _ rest => rest.AreUnread
  | .resolved source rest => source.IsUnread ∧ rest.AreUnread

end

mutual

theorem Accessor.IsUnread.isCurrent {a : Accessor} (h : a.IsUnread) (now : Moment) : a.IsCurrent now := by
  cases a with
  | mk s suffixes m =>
    obtain ⟨hsuffixes, hmemory⟩ := h
    exact ⟨Suffixes.AreUnread.areCurrent hsuffixes now, by simp [hmemory]⟩

private theorem Suffixes.AreUnread.areCurrent {suffixes : Suffixes} (h : suffixes.AreUnread) (now : Moment) :
    suffixes.AreCurrent now := by
  cases suffixes with
  | nil => trivial
  | literal text rest =>
    have hrest : rest.AreUnread := h
    exact show rest.AreCurrent now from Suffixes.AreUnread.areCurrent hrest now
  | resolved source rest =>
    exact ⟨Accessor.IsUnread.isCurrent h.1 now, Suffixes.AreUnread.areCurrent h.2 now⟩

end

namespace Suffixes

private theorem areUnread_addLiteral {suffixes : Suffixes} (h : suffixes.AreUnread) (text : String) :
    (suffixes.addLiteral text).AreUnread := by
  cases suffixes with
  | nil => trivial
  | literal t rest =>
    have hrest : rest.AreUnread := h
    exact show (rest.addLiteral text).AreUnread from areUnread_addLiteral hrest text
  | resolved source rest => exact ⟨h.1, areUnread_addLiteral h.2 text⟩

private theorem areUnread_addResolved {suffixes : Suffixes} (h : suffixes.AreUnread) {added : Accessor}
    (hadded : added.IsUnread) : (suffixes.addResolved added).AreUnread := by
  cases suffixes with
  | nil => exact ⟨hadded, trivial⟩
  | literal t rest =>
    have hrest : rest.AreUnread := h
    exact show (rest.addResolved added).AreUnread from areUnread_addResolved hrest hadded
  | resolved source rest => exact ⟨h.1, areUnread_addResolved h.2 hadded⟩

end Suffixes

namespace Accessor

/-- What was built from a registry has kept no result, and the registry has at most grown. -/
structure Built.IsSound (r : Registry) (b : Built) : Prop where
  grown : r.Extends b.registry
  wellFormed : b.registry.WellFormed
  unread : ∀ a, b.outcome = .ok a → a.IsUnread

variable {v : View} {r : Registry} {a : Accessor}

private theorem isUnread_reshape (h : a.IsUnread) (t : ValueType) (shape : Shape) (c : Option Converter) :
    (a.reshape t shape c).IsUnread := by
  cases a with
  | mk s suffixes m => exact ⟨h.1, rfl⟩

private theorem isUnread_modifySettings (h : a.IsUnread) (f : Settings → Settings) : (a.modifySettings f).IsUnread := by
  cases a with
  | mk s suffixes m => exact h

private theorem isUnread_addSuffix (h : a.IsUnread) {add : Suffixes → Suffixes}
    (hadd : ∀ suffixes, suffixes.AreUnread → (add suffixes).AreUnread) : (a.addSuffix add).IsUnread := by
  cases a with
  | mk s suffixes m =>
    unfold addSuffix
    split
    · exact h
    · exact ⟨hadd _ h.1, h.2⟩

private theorem isUnread_addSource (h : a.IsUnread) {source : Accessor} (hsource : source.IsUnread) :
    (a.addSource source).IsUnread := by
  unfold addSource
  split
  · exact isUnread_addSuffix h fun _ hs => Suffixes.areUnread_addResolved hs hsource
  · exact h

private theorem Built.IsSound.of_ok (hr : r.WellFormed) (h : a.IsUnread) : Built.IsSound r ⟨.ok a, r, []⟩ := by
  refine ⟨.refl r, hr, fun b hb => ?_⟩
  obtain rfl := Except.ok.inj hb
  exact h

private theorem withTextDefault_isSound (hr : r.WellFormed) (h : a.IsUnread) (raw : String) :
    (a.withTextDefault v r raw).IsSound r := by
  unfold withTextDefault
  split
  · exact ⟨.refl r, hr, by simp⟩
  · obtain ⟨hext, hwf⟩ := (asked_decode a.settings r (process v a.settings raw).text).grows hr
    dsimp only
    split
    · rename_i hd
      rw [hd] at hext hwf
      exact ⟨hext, hwf, by simp⟩
    · rename_i hd
      rw [hd] at hext hwf
      refine ⟨hext, hwf, fun b hb => ?_⟩
      obtain rfl := Except.ok.inj hb
      exact isUnread_modifySettings h _

private theorem isUnread_start (key : String) : (start key).IsUnread := ⟨trivial, rfl⟩

mutual

private theorem step_isSound {v : View} {r : Registry} (hr : r.WellFormed) {a : Accessor} (h : a.IsUnread)
    (taken : BuildStep) : (step v r a taken).IsSound r := by
  cases taken with
  | type t => exact .of_ok hr (isUnread_reshape h _ _ _)
  | list => exact .of_ok hr (isUnread_reshape h _ _ _)
  | set => exact .of_ok hr (isUnread_reshape h _ _ _)
  | default texts => exact .of_ok hr (isUnread_modifySettings h _)
  | textDefault raw => exact withTextDefault_isSound hr h raw
  | converter recipe => exact .of_ok hr (isUnread_modifySettings h _)
  | lifetime d => exact .of_ok hr (isUnread_modifySettings h _)
  | expands on => exact .of_ok hr (isUnread_modifySettings h _)
  | suffix text => exact .of_ok hr (isUnread_addSuffix h fun _ hs => Suffixes.areUnread_addLiteral hs text)
  | suffixFrom key steps =>
    obtain ⟨hext, hwf, hunread⟩ := @applySteps_isSound v r hr (start key) (isUnread_start key) steps
    rw [step]
    split
    · exact ⟨hext, hwf, by simp⟩
    · rename_i source hsource
      refine ⟨hext, hwf, fun b hb => ?_⟩
      obtain rfl := Except.ok.inj hb
      exact isUnread_addSource h (hunread source hsource)

private theorem applySteps_isSound {v : View} {r : Registry} (hr : r.WellFormed) {a : Accessor} (h : a.IsUnread)
    (steps : BuildSteps) : (applySteps v r a steps).IsSound r := by
  cases steps with
  | nil => exact .of_ok hr h
  | cons taken rest =>
    obtain ⟨hext, hwf, hunread⟩ := @step_isSound v r hr a h taken
    rw [applySteps]
    dsimp only
    split
    · exact ⟨hext, hwf, by simp⟩
    · rename_i b hb
      obtain ⟨hext', hwf', hunread'⟩ := applySteps_isSound hwf (hunread b hb) rest
      exact ⟨hext.trans hext', hwf', hunread'⟩

end

/-- What was built has kept no result. -/
theorem build_isSound (hr : r.WellFormed) (key : String) (steps : List BuildStep) : (build v r key steps).IsSound r :=
  applySteps_isSound hr (isUnread_start key) (.ofList steps)

end Accessor

end LayeredConfig
