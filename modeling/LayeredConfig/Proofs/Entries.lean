import LayeredConfig.Entries
import LayeredConfig.Proofs.Lookup
import Mathlib.Data.List.Nodup

/-!
# Maps of entries

Entries are determined by what their keys read (`eq_of_get?`).  Pairs of different keys are all there once they are put
(`perm_ofPairs`), and reading one list of pairs after another is reading the second one and putting it over the first
(`ofPairs_append`).
-/

namespace LayeredConfig

namespace Entries

private theorem nodup_keys (e : Entries) : (e.pairs.map Prod.fst).Nodup :=
  e.increasing.imp fun {_ _} hlt => String.ne_of_lt hlt

private theorem mem_pairs {e : Entries} {p : String × String} : p ∈ e.pairs ↔ e.get? p.1 = some p.2 :=
  ⟨lookup_eq_some_of_mem e.nodup_keys, mem_of_lookup⟩

/-- The keys of pairs that are put are the keys of the entries. -/
theorem mem_keys_ofPairs {pairs : List (String × String)} {key : String} :
    key ∈ (ofPairs pairs).keys ↔ key ∈ pairs.map Prod.fst := by
  rw [mem_keys, ← Option.isSome_iff_exists, get?_ofPairs, List.lookup_isSome_iff]
  simp

/-- Entries of different keys are all there. -/
theorem perm_ofPairs {pairs : List (String × String)} (h : (pairs.map Prod.fst).Nodup) :
    (ofPairs pairs).pairs.Perm pairs := by
  refine (List.perm_ext_iff_of_nodup (.of_map Prod.fst (nodup_keys _)) (.of_map Prod.fst h)).2 fun p => ?_
  have hreverse : (pairs.reverse.map Prod.fst).Nodup := by
    rwa [List.map_reverse, List.nodup_reverse]
  rw [mem_pairs, get?_ofPairs, ← List.mem_reverse]
  exact ⟨mem_of_lookup, lookup_eq_some_of_mem hreverse⟩

theorem eq_of_perm {e e' : Entries} (h : e.pairs.Perm e'.pairs) : e = e' := by
  have hsorted (e : Entries) : e.pairs.Pairwise fun p q => p.1 < q.1 := List.pairwise_map.1 e.increasing
  have hpairs : e.pairs = e'.pairs :=
    h.eq_of_pairwise (fun p q _ _ hpq hqp => absurd (String.lt_trans hpq hqp) (String.lt_irrefl _)) (hsorted e)
      (hsorted e')
  obtain ⟨pairs, increasing⟩ := e
  obtain ⟨pairs', increasing'⟩ := e'
  obtain rfl : pairs = pairs' := hpairs
  rfl

/-- Entries that read alike are the same. -/
theorem eq_of_get? {e e' : Entries} (h : ∀ key, e.get? key = e'.get? key) : e = e' := by
  apply eq_of_perm
  refine (List.perm_ext_iff_of_nodup (.of_map Prod.fst (nodup_keys e)) (.of_map Prod.fst (nodup_keys e'))).2 ?_
  intro p
  rw [mem_pairs, mem_pairs, h]

private theorem ofPairs_pairs (e : Entries) : ofPairs e.pairs = e :=
  eq_of_perm (perm_ofPairs e.nodup_keys)

theorem putAll_append (e : Entries) (pairs more : List (String × String)) :
    e.putAll (pairs ++ more) = (e.putAll pairs).putAll more := List.foldl_append

/-- The pairs of two lists one after the other are those of the second put over those of the first. -/
theorem ofPairs_append (pairs more : List (String × String)) :
    ofPairs (pairs ++ more) = (ofPairs pairs).putAll (ofPairs more).pairs := by
  apply eq_of_get?
  intro key
  have hmore : (ofPairs more).pairs.reverse.lookup key = more.reverse.lookup key := by
    rw [← get?_ofPairs, ofPairs_pairs, get?_ofPairs]
  rw [get?_putAll, hmore, get?_ofPairs, get?_ofPairs, List.reverse_append, List.lookup_append]

end Entries

end LayeredConfig
