import LayeredConfig.Engine
import LayeredConfig.Proofs.Entries
import LayeredConfig.Proofs.SourceSet

/-!
# Keys that are listed and keys that are found

The keys of an engine are listed from the entries of its sources, and a value is found by asking the sources one after
the other.  The environment answers for more keys than it lists, those that a variable stands for under another name
(`isSome_get?_iff`); apart from them, the keys that are found are those that are listed (`isSome_lookup?_iff`).
-/

namespace LayeredConfig

/-! ### Names of variables -/

namespace Source

/-- Whether a source is the environment and has a variable named like the sanitized key, or in capital letters. -/
def HasVariableFor (s : Source) (key : String) : Prop :=
  s.backing = .environment ∧ ∃ name ∈ [sanitize key, capitals (sanitize key)], name ∈ s.entries.keys

/-- A character of a sanitized key stays as it is. -/
private theorem sanitize_sanitize (key : String) : sanitize (sanitize key) = sanitize key := by
  rw [sanitize, sanitize, String.toList_ofList, List.map_map]
  congr 1
  refine List.map_congr_left fun c _ => ?_
  by_cases hc : c.isAlphanum
  · simp [hc]
  · simp [hc]

variable {s : Source} {key : String}

private theorem get?_of_environment (h : s.backing = .environment) (key : String) :
    s.get? key =
      (s.entries.get? key).or ((s.entries.get? (sanitize key)).or (s.entries.get? (capitals (sanitize key)))) := by
  rw [get?, h]

/-- A key that no variable has as its name is read like the sanitized key. -/
private theorem get?_eq_sanitize (h : s.backing = .environment) (hkey : s.entries.get? key = none) :
    s.get? key = s.get? (sanitize key) := by
  rw [get?_of_environment h, get?_of_environment h, hkey, Option.none_or, sanitize_sanitize, ← Option.or_assoc,
    Option.or_self]

/-- A source answers for the keys of its entries, and the environment for those that a variable stands for. -/
theorem isSome_get?_iff : (s.get? key).isSome ↔ key ∈ s.entries.keys ∨ s.HasVariableFor key := by
  simp only [HasVariableFor, Entries.mem_keys, ← Option.isSome_iff_exists]
  unfold get?
  split
  · rename_i henvironment
    simp [henvironment]
  · rename_i hother
    rw [or_iff_left fun h => hother h.1]

end Source

/-! ### Keys of several sources -/

namespace SourceSet

variable {sources : List Source} {key : String}

private theorem mem_sortedNames {names : List String} {name : String} : name ∈ sortedNames names ↔ name ∈ names := by
  rw [sortedNames, Entries.mem_keys_ofPairs, List.map_map]
  simp

private theorem mem_propertyNames : key ∈ propertyNames sources ↔ ∃ s ∈ sources, key ∈ s.entries.keys := by
  rw [propertyNames, mem_sortedNames, List.mem_flatMap]

/-- The sources have a value for the keys that they list, and for those that a variable stands for. -/
theorem isSome_lookup?_iff :
    (lookup? sources key).isSome ↔ key ∈ propertyNames sources ∨ ∃ s ∈ sources, s.HasVariableFor key := by
  rw [lookup?, List.findSome?_isSome_iff]
  simp only [Option.isSome_map, Source.isSome_get?_iff, mem_propertyNames, and_or_left, exists_or]

end SourceSet

/-! ### Keys of an engine -/

private theorem Store.isSome_find_iff {st : Store} {e : Engine} {key : String} :
    (st.find e key).isSome ↔ key ∈ SourceSet.propertyNames ((st.sourcesOf e).map Prod.snd) ∨
      ∃ s ∈ (st.sourcesOf e).map Prod.snd, s.HasVariableFor key := by
  rw [Store.find, Option.isSome_map, SourceSet.isSome_lookup?_iff]

/-- Every key that an engine lists has a value.  A key that has a value is listed, or a variable of the environment
stands for it, named like the sanitized key or in capital letters.  The environment reads a key that no variable has as
its name like the sanitized key, and so like all such keys with the same sanitized form. -/
theorem Store.names_agree (st : Store) (e : Engine) :
    (∀ key ∈ SourceSet.propertyNames ((st.sourcesOf e).map Prod.snd), ∃ value, st.find e key = some value) ∧
    (∀ key value, st.find e key = some value → key ∈ SourceSet.propertyNames ((st.sourcesOf e).map Prod.snd) ∨
      ∃ p ∈ st.sourcesOf e, p.2.HasVariableFor key) ∧
    ∀ s : Source, s.backing = .environment → ∀ key, key ∉ s.entries.keys →
      s.get? key = s.get? (Source.sanitize key) ∧
        ∀ other, other ∉ s.entries.keys → Source.sanitize other = Source.sanitize key → s.get? other = s.get? key := by
  have hsanitize {s : Source} (hs : s.backing = .environment) {key : String} (hkey : key ∉ s.entries.keys) :
      s.get? key = s.get? (Source.sanitize key) := by
    refine Source.get?_eq_sanitize hs (Option.eq_none_iff_forall_ne_some.2 fun value hvalue => hkey ?_)
    exact Entries.mem_keys.2 ⟨value, hvalue⟩
  refine ⟨fun key hkey => ?_, fun key value hvalue => ?_, fun s hs key hkey => ⟨hsanitize hs hkey, ?_⟩⟩
  · rw [← Option.isSome_iff_exists, isSome_find_iff]
    exact .inl hkey
  · have hfound : (st.find e key).isSome := by
      rw [hvalue]
      rfl
    refine (isSome_find_iff.1 hfound).imp_right fun ⟨s, hs, hvariable⟩ => ?_
    obtain ⟨p, hp, rfl⟩ := List.mem_map.1 hs
    exact ⟨p, hp, hvariable⟩
  · intro other hother heq
    rw [hsanitize hs hother, hsanitize hs hkey, heq]

/-- An engine over a file, values in memory and the environment, whose variable stands for keys that are not listed. -/
def Store.pooled : Store × Engine :=
  ({ Store.empty [] FileTree.empty Entries.empty with
      sources :=
        [(0, ⟨.ofFileEntries "app.properties" 100 (Entries.ofPairs [("db.host", "localhost")]), none⟩),
         (1, ⟨.ofEntries "memory" 200 (Entries.ofPairs [("db.port", "")]), none⟩),
         (2, ⟨.ofEnvironment (Entries.ofPairs [("DB_POOL_SIZE", "12")]), none⟩)] },
    ⟨[2, 1, 0], Registry.empty [], 0, 0, false⟩)

theorem Store.names_agree_pooled :
    (∃ value, pooled.1.find pooled.2 "db.port" = some value) ∧
      pooled.1.find pooled.2 "db.pool-size" = some "12" ∧
      (∃ p ∈ pooled.1.sourcesOf pooled.2, p.2.HasVariableFor "db.pool-size") ∧
      (Source.ofEnvironment (Entries.ofPairs [("DB_POOL_SIZE", "12")])).get? "db/pool.size" =
        (Source.ofEnvironment (Entries.ofPairs [("DB_POOL_SIZE", "12")])).get? "db.pool-size" := by
  obtain ⟨hlisted, hfound, hread⟩ := Store.names_agree pooled.1 pooled.2
  have hvalue : pooled.1.find pooled.2 "db.pool-size" = some "12" := by decide +kernel
  refine ⟨hlisted "db.port" (by decide +kernel), hvalue, (hfound _ _ hvalue).resolve_left (by decide +kernel), ?_⟩
  exact (hread _ rfl "db.pool-size" (by decide +kernel)).2 "db/pool.size" (by decide +kernel) (by decide +kernel)

end LayeredConfig
