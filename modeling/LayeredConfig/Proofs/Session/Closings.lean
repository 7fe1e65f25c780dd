import LayeredConfig.Proofs.Session.Shutdown
import Mathlib.Data.List.Nodup

/-!
# Which providers are closed

Closing an engine closes the providers that are active then, each once.  A provider that was accepted but passed over,
or replaced since, is forgotten and never closed.  So all that were accepted are closed exactly if they are for
different types, and each is still the active converter of its type (`closings_after`).
-/

namespace LayeredConfig.Session

/-- Which of the accepted providers are closed with a registry: the active ones. -/
structure ClosesActive (r : Registry) (accepted closed : List (ValueType × Closing)) : Prop where
  active : r.Active closed
  subperm : closed.Subperm accepted
  all_iff : closed.Perm accepted ↔ (accepted.map Prod.fst).Nodup ∧ ∀ p ∈ accepted, r.provider? p.1 = some p.2

private theorem closesActive_of_subperm {r : Registry} {accepted closed : List (ValueType × Closing)}
    (hactive : r.Active closed) (haccepted : closed.Subperm accepted) : ClosesActive r accepted closed := by
  refine ⟨hactive, haccepted, fun hperm => ⟨?_, fun p hp => ?_⟩, fun ⟨hnodup, hall⟩ => ?_⟩
  · exact (hperm.map Prod.fst).nodup_iff.1 hactive.nodup
  · exact (hactive.mem_iff p.1 p.2).1 (hperm.mem_iff.2 hp)
  -- Accepted providers of different types that are all active are in the list of the active ones.
  · refine (List.perm_ext_iff_of_nodup (.of_map Prod.fst hactive.nodup) (.of_map Prod.fst hnodup)).2 fun p => ?_
    exact ⟨fun hp => haccepted.subset hp, fun hp => (hactive.mem_iff p.1 p.2).2 (hall p hp)⟩

/-- Whatever steps a session takes, the first close of an engine closes its active providers, and no others of those
that it accepted. -/
theorem closings_after (customTypes : List CustomType) (files : FileTree) (vars : Entries) (steps : List Step)
    {F : EngineId} {e : Engine} {taken : Step}
    (he : ((start customTypes files vars).after steps).store.engine? F = some e)
    (hcloses : ((start customTypes files vars).after steps).Closes F taken)
    (hopen : ¬ ClosedBy F (start customTypes files vars) steps) :
    ∃ closed, ClosesActive e.registry (entrustedBy F (start customTypes files vars) steps) closed ∧
      (((start customTypes files vars).after steps).step taken).1.ClosesAll
        ((start customTypes files vars).after steps) (closed.map fun p => .provider p.1 p.2)
        ((((start customTypes files vars).after steps).store.sourcesOf e).map fun p => .source p.1 p.2) := by
  have haccounts := accounts_after F customTypes files vars steps
  have hsorted := List.mergeSort_perm e.registry.closings fun a b => a.1.label ≤ b.1.label
  refine ⟨_, closesActive_of_subperm ?_ ?_, closesAll_of_open he hcloses ?_⟩
  · exact Registry.active_of_perm (haccounts.onePerType e he) hsorted
  · exact hsorted.subperm.trans (haccounts.closings e he)
  · simpa [hopen] using haccounts.closed e he

/-- An engine is built with a provider and accepts another one for a second type. -/
def providing : List Step :=
  [.build "engine" [] false [⟨.text, .upper, 100, some ⟨none⟩⟩],
   .converters "engine" (.register ⟨.bool, .upper, 50, some ⟨some "busy"⟩⟩)]

theorem closings_after_providing :
    ∃ e, ((start [] FileTree.empty Entries.empty).after providing).store.engine? 0 = some e ∧
      ∃ closed, ClosesActive e.registry [(.text, ⟨none⟩), (.bool, ⟨some "busy"⟩)] closed ∧
        closed.Perm [(.text, ⟨none⟩), (.bool, ⟨some "busy"⟩)] := by
  have hopen : ¬ ClosedBy 0 (start [] FileTree.empty Entries.empty) providing := by
    rintro (h | h | h) <;> exact h
  have haccepted : entrustedBy 0 (start [] FileTree.empty Entries.empty) providing =
      [(.text, ⟨none⟩), (.bool, ⟨some "busy"⟩)] := by decide +kernel
  have hcloses : ((start [] FileTree.empty Entries.empty).after providing).Closes 0 (.close "engine") := ⟨rfl, rfl⟩
  obtain ⟨closed, hclosed, -⟩ := closings_after [] FileTree.empty Entries.empty providing rfl hcloses hopen
  rw [haccepted] at hclosed
  refine ⟨_, rfl, closed, hclosed, hclosed.all_iff.2 ⟨by decide, ?_⟩⟩
  decide +kernel

/-- An engine is built with two providers for one type, and accepts both. -/
def replacing : List Step :=
  [.build "engine" [] false
    [⟨.custom "Hostname", .constant "first", 100, some ⟨none⟩⟩,
     ⟨.custom "Hostname", .constant "second", 200, some ⟨none⟩⟩]]

/-- Closing it succeeds but leaves the first of them open. -/
theorem unclosed_replacing :
    entrustedBy 0 (start [] FileTree.empty Entries.empty) replacing =
        [(.custom "Hostname", ⟨none⟩), (.custom "Hostname", ⟨none⟩)] ∧
      (((start [] FileTree.empty Entries.empty).after replacing).step (.close "engine")).1.result = .ok .nothing ∧
      (((start [] FileTree.empty Entries.empty).after replacing).step (.close "engine")).1.events =
        [.converterClosed (.custom "Hostname")] := by
  have hengine : (((start [] FileTree.empty Entries.empty).after replacing).store.engine? 0).map
      (fun e => (e.closed, e.sources, e.registry.closings)) = some (false, [], [(.custom "Hostname", ⟨none⟩)]) := by
    decide +kernel
  obtain ⟨e, he, heq⟩ := Option.map_eq_some_iff.1 hengine
  obtain ⟨hopen, heq⟩ := Prod.mk.inj heq
  obtain ⟨hsources, hclosings⟩ := Prod.mk.inj heq
  have hcloses : ((start [] FileTree.empty Entries.empty).after replacing).Closes 0 (.close "engine") := ⟨rfl, rfl⟩
  have hall := closesAll_of_open he hcloses hopen
  rw [hclosings, List.mergeSort_singleton, Store.sourcesOf, hsources] at hall
  exact ⟨by decide +kernel, hall.result_ok_iff.2 (by simp [Resource.failure?]), hall.attempts⟩

end LayeredConfig.Session
