import LayeredConfig.Proofs.Accessor.LookupChain
import LayeredConfig.Proofs.Accessor.Nesting
import LayeredConfig.Proofs.Session.Handling

/-!
# The accessors of a session

Whatever steps a session takes, its accessors were built in one way and have only been read since.  So what building
gives and reading keeps holds of all of them (`Accessor.Lasting.after`).  In particular they have room for their
suffixes, and look up their keys along the chain (`lookup_after`).
-/

namespace LayeredConfig

/-- A property that every accessor has when it is built, and keeps when it is read. -/
structure Accessor.Lasting (P : Accessor → Prop) : Prop where
  build : ∀ v r key steps a, (Accessor.build v r key steps).outcome = .ok a → P a
  optionalValue : ∀ v r a, P a → P (a.optionalValue v r).accessor
  rawValue : ∀ v r a, P a → P (a.rawValue v r).accessor

namespace Session

/-- Whether all accessors of a session have a property. -/
def AllAccessors (P : Accessor → Prop) (s : Session) : Prop := ∀ p ∈ s.accessors, P p.2.accessor

variable {P : Accessor → Prop} {s : Session}

private theorem AllAccessors.step (hP : Accessor.Lasting P) (hs : s.AllAccessors P) (taken : Step) :
    (s.step taken).2.AllAccessors P := by
  intro p hp
  cases (handles_perform s taken).comesFrom p hp with
  | built _ _ ha => exact hP.build _ _ _ _ _ ha
  | kept hq _ _ ha => exact ha ▸ hs _ hq
  | read hq _ _ _ ha => exact ha ▸ hP.optionalValue _ _ _ (hs _ hq)
  | rawRead hq _ _ _ ha => exact ha ▸ hP.rawValue _ _ _ (hs _ hq)

/-- Whatever steps a session takes. -/
theorem AllAccessors.after (hP : Accessor.Lasting P) (hs : s.AllAccessors P) (steps : List Step) :
    (s.after steps).AllAccessors P :=
  after_induction (P := AllAccessors P) (fun _ taken hs => hs.step hP taken) hs steps

end Session

/-- What building gives and reading keeps holds of every accessor. -/
theorem Accessor.Lasting.after {P : Accessor → Prop} (hP : Accessor.Lasting P) (customTypes : List CustomType)
    (files : FileTree) (vars : Entries) (steps : List Session.Step) :
    ((Session.start customTypes files vars).after steps).AllAccessors P := by
  have hstart : (Session.start customTypes files vars).AllAccessors P := fun p hp => nomatch hp
  exact hstart.after hP steps

private theorem Accessor.Fits.lasting : Lasting Fits :=
  ⟨fun _ _ _ _ _ ha => fits_of_build ha, fun v r _ h => h.optionalValue v r, fun v r _ h => h.rawValue v r⟩

namespace Session

open Accessor (Becomes FollowsChain candidates kept? lookup maxSuffixes nonempties suffixValues)

/-- The number of keys to look up, as the program works it out with 32 bits. -/
private theorem toNat_shiftLeft {n : Nat} (h : n ≤ maxSuffixes) : ((1 : UInt32) <<< UInt32.ofNat n).toNat = 2 ^ n := by
  have h : n ≤ 16 := h
  have hlt : 2 ^ n < 2 ^ (32 : Nat) := Nat.pow_lt_pow_right (by omega) (by omega)
  have hn : (UInt32.ofNat n).toNat = n := UInt32.toNat_ofNat_of_lt' (by show n < 2 ^ (32 : Nat); omega)
  have hmod : n % 32 = n := Nat.mod_eq_of_lt (by omega)
  rw [UInt32.toNat_shiftLeft, hn, hmod, UInt32.toNat_one, Nat.shiftLeft_eq, Nat.one_mul, Nat.mod_eq_of_lt hlt]

/-- In every session, and whatever the state of the engine: at most 16 suffixes of an accessor apply, so their masks
can be counted, its key is looked up along the chain of those that are not empty, and it answers what was found. -/
theorem lookup_after (customTypes : List CustomType) (files : FileTree) (vars : Entries) (steps : List Step)
    {name : String} {held : Held} (hheld : (name, held) ∈ ((start customTypes files vars).after steps).accessors)
    {a : Accessor} (ha : a ∈ held.accessor.all) (v : View) (r : Registry) :
    match suffixValues v r a.suffixes with
    | .error e =>
      (a.rawValue v r).outcome = .error e ∧
        (kept? v a.settings a.memory = none → (a.optionalValue v r).outcome = .error e)
    | .ok values =>
      (nonempties values).length ≤ 16 ∧
      ((1 : UInt32) <<< UInt32.ofNat (nonempties values).length).toNat = 2 ^ (nonempties values).length ∧
      FollowsChain v a.settings (nonempties values) ∧
      a.Answers v r (lookup v a.settings (nonempties values)) := by
  have hfits : held.accessor.Fits := Accessor.Fits.lasting.after customTypes files vars steps _ hheld
  have houtcome := Accessor.presentSuffixes_outcome v r a.suffixes
  split
  · rename_i e hvalues
    rw [hvalues] at houtcome
    exact Accessor.fails_of_presentSuffixes houtcome
  · rename_i values hvalues
    rw [hvalues] at houtcome
    have hlength : (nonempties values).length ≤ maxSuffixes :=
      Nat.le_trans (Accessor.length_nonempties_le hvalues) (hfits a ha)
    exact ⟨hlength, toNat_shiftLeft hlength, Accessor.followsChain v a.settings _,
      Accessor.answers_of_presentSuffixes houtcome⟩

/-- An accessor with a suffix of its own and one that comes from another key. -/
def regional : List Step :=
  [.build "engine" [] false [],
   .accessor "url" "engine" "db.url" [.suffix "prod", .suffixFrom "app.region" (.cons (.expands false) .nil)]]

/-- The most specific key has a value that becomes empty. -/
def regionalView : View :=
  ⟨(Entries.ofPairs [("app.region", "eu"), ("db.url", "base"), ("db.url.prod.eu", "$\x7bunset:\x7d")]).get?, 0, 0⟩

private theorem expand?_unset : Template.expand? regionalView.present? "$\x7bunset:\x7d" =
    some ⟨[], false, [.asked 0 "unset", .substituted 0]⟩ := by
  have hturn : (Template.Progress.start "$\x7bunset:\x7d").turn regionalView.present? =
      .more ⟨[], [], [.asked 0 "unset", .substituted 0]⟩ := by
    with_unfolding_all rfl
  have hlast : (Template.Progress.mk [] [] [.asked 0 "unset", .substituted 0]).turn regionalView.present? =
      .last ⟨[], false, [.asked 0 "unset", .substituted 0]⟩ := by
    with_unfolding_all rfl
  rw [Template.expand?, Template.Progress.finish?, hturn]
  dsimp only
  rw [Template.Progress.finish?, hlast]

/-- It answers nevertheless, with nothing. -/
theorem lookup_after_regional :
    ∃ held, ("url", held) ∈ ((start [] FileTree.empty Entries.empty).after regional).accessors ∧
      (held.accessor.rawValue regionalView (Registry.standard [])).outcome = .ok none ∧
      (held.accessor.rawValue regionalView (Registry.standard [])).accessor.memory.resolvedKey =
        some "db.url.prod.eu" := by
  obtain ⟨held, haccessors, hvalues, hself, hsettings⟩ : ∃ held,
      ((start [] FileTree.empty Entries.empty).after regional).accessors = [("url", held)] ∧
      suffixValues regionalView (Registry.standard []) held.accessor.suffixes = .ok [some "prod", some "eu"] ∧
      held.accessor ∈ held.accessor.all ∧ (held.accessor.settings.key = "db.url" ∧ held.accessor.settings.expands) :=
    ⟨_, rfl, rfl, List.mem_cons_self, rfl, rfl⟩
  have hheld : ("url", held) ∈ ((start [] FileTree.empty Entries.empty).after regional).accessors := by
    rw [haccessors]
    exact List.mem_singleton_self _
  have hlookup := lookup_after [] FileTree.empty Entries.empty regional hheld hself regionalView
    (Registry.standard [])
  rw [hvalues] at hlookup
  obtain ⟨-, -, hchain, hanswers⟩ := hlookup
  have htexts : nonempties [some "prod", some "eu"] = ["prod", "eu"] := rfl
  rw [htexts] at hchain hanswers
  have hkeys : candidates held.accessor.settings.key ["prod", "eu"] =
      [] ++ "db.url.prod.eu" :: ["db.url.prod", "db.url.eu", "db.url"] := by
    rw [hsettings.1]
    decide +kernel
  have hbecomes : Becomes regionalView held.accessor.settings "$\x7bunset:\x7d" "" := by
    rw [Becomes, if_pos hsettings.2]
    exact ⟨_, expand?_unset, rfl⟩
  have hpresent : regionalView.present? "db.url.prod.eu" = some "$\x7bunset:\x7d" := rfl
  obtain ⟨hkey, hraw, -⟩ := hchain.present [] _ _ _ _ hkeys (by simp) hpresent hbecomes
  refine ⟨held, hheld, ?_, ?_⟩
  · rw [hanswers.raw, hraw]
    rfl
  · rw [hanswers.rawKey, hkey]

end Session

end LayeredConfig
