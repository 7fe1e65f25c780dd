import LayeredConfig.Engine
import LayeredConfig.Proofs.Registry.Precedence

/-!
# Conflicts while an engine is built

A registration is compared with the highest priority before it, so two of a lower equal priority conflict only when
no higher one comes between them.  Hence whether converters conflict depends on their order (`conflicts_iff`), and it
does not exactly when the highest priority of some type is shared, or no priority at all (`order_independent_iff`).
-/

namespace LayeredConfig

open Registry (Call Offer Tracks contenders)

/-- A converter to be registered when an engine is built. -/
def Registry.Offer.pending (o : Offer) : Store.Pending := (o.type, o.registration)

/-- Whether building an engine with some converters fails because two of them conflict. -/
def Store.Conflicts (s : Store) (ids : List SourceId) (environment : Bool) (l : List Offer) : Prop :=
  ∃ name priority, s.build ids environment (l.map Offer.pending) = .error (.conflictingPriority name priority)

namespace Registry

/-- Two converters of a type have the same priority. -/
def SharesPriority (l : List Offer) : Prop :=
  ∃ t priority, 2 ≤ l.countP fun o => o.type = t ∧ o.priority = priority

/-- Two converters of a type have the same priority, and no other of the type has a higher one. -/
def SharesHighest (l : List Offer) : Prop :=
  ∃ t priority, (2 ≤ l.countP fun o => o.type = t ∧ o.priority = priority) ∧
    ∀ o ∈ l, o.type = t → o.priority ≤ priority

/-- Whether a converter has the highest priority of those of its type before it. -/
def Clashes (before : List Offer) (o : Offer) : Prop :=
  (∃ q ∈ before, q.type = o.type ∧ q.priority = o.priority) ∧ ∀ q ∈ before, q.type = o.type → q.priority ≤ o.priority

section

variable {before after l l' : List Offer} {o : Offer} {history : List Call} {r : Registry}

/-- For types without a built-in converter all registrations count. -/
private theorem contenders_register (l : List Offer) {t : ValueType} (ht : Converter.builtin? t = none) :
    contenders true t (l.map .register) = l.filter fun o => o.type = t := by
  have hb : builtin? true t = none := by simp [builtin?, ht]
  have hoffers : offers t (l.map .register) = l.filter fun o => o.type = t := by
    induction l with
    | nil => rfl
    | cons o l ih =>
      rw [List.map_cons, offers, List.filterMap_cons, List.filter_cons, ← ih]
      by_cases ho : o.type = t
      · simp [ho, offers]
      · simp [ho, offers]
  rw [contenders, hoffers, List.filter_eq_self]
  simp [hb]

private theorem max?_contenders_iff (ho : Converter.builtin? o.type = none) :
    ((contenders true o.type (before.map .register)).map Offer.priority).max? = some o.priority ↔
      Clashes before o := by
  rw [contenders_register before ho, List.max?_eq_some_iff, List.forall_mem_map]
  simp [Clashes, and_assoc]

/-! ### Building -/

/-- Registering converters one after the other fails at the first that conflicts with those before it. -/
private theorem Tracks.foldlM_register (h : Tracks true history r) (l : List Offer) :
    (∃ name priority, (l.map Offer.pending).foldlM (fun r p => r.register p.1 p.2) r =
        .error (.conflictingPriority name priority)) ↔
      ∃ before o after, l = before ++ o :: after ∧
        ((contenders true o.type (history ++ before.map .register)).map Offer.priority).max? = some o.priority := by
  induction l generalizing history r with
  | nil =>
    refine ⟨fun ⟨name, priority, herror⟩ => (nomatch herror), fun ⟨before, o, after, hl, _⟩ => ?_⟩
    exact absurd hl (List.append_ne_nil_of_right_ne_nil _ (List.cons_ne_nil o after)).symm
  | cons o l ih =>
    have hnext := h.step (.register o)
    rw [h.run_register o] at hnext
    rw [List.map_cons, List.foldlM_cons, Offer.pending, h.register_eq o]
    by_cases hmax : ((contenders true o.type history).map Offer.priority).max? = some o.priority
    · rw [if_pos hmax]
      exact iff_of_true ⟨_, _, rfl⟩ ⟨[], o, l, rfl, by rwa [List.map_nil, List.append_nil]⟩
    · rw [if_neg hmax] at hnext ⊢
      refine (ih hnext).trans ⟨fun ⟨before, p, after, hl, hp⟩ => ?_, fun ⟨before, p, after, hl, hp⟩ => ?_⟩
      · refine ⟨o :: before, p, after, by rw [hl, List.cons_append], ?_⟩
        rwa [List.append_assoc] at hp
      -- The first registration succeeds, so the one that fails comes after it.
      · cases before with
        | nil =>
          obtain ⟨rfl, -⟩ := List.cons.inj hl
          rw [List.map_nil, List.append_nil] at hp
          exact absurd hp hmax
        | cons q before =>
          obtain ⟨rfl, htail⟩ := List.cons.inj hl
          refine ⟨before, p, after, htail, ?_⟩
          rwa [List.append_assoc]

/-- Building fails at the first converter that clashes with those before it. -/
theorem conflicts_iff (s : Store) (ids : List SourceId) (environment : Bool)
    (hl : ∀ o ∈ l, Converter.builtin? o.type = none) :
    s.Conflicts ids environment l ↔ ∃ before o after, l = before ++ o :: after ∧ Clashes before o := by
  have hregistry := (Tracks.initial s.customTypes true).foldlM_register l
  have hbuild : s.Conflicts ids environment l ↔ ∃ name priority,
      Store.registryOf s.customTypes (l.map Offer.pending) = .error (.conflictingPriority name priority) := by
    unfold Store.Conflicts Store.build
    cases Store.registryOf s.customTypes (l.map Offer.pending) with
    | error e => simp
    | ok r => simp
  refine hbuild.trans (hregistry.trans ⟨fun ⟨before, o, after, heq, ho⟩ => ?_, fun ⟨before, o, after, heq, ho⟩ => ?_⟩)
  · refine ⟨before, o, after, heq, ?_⟩
    exact (max?_contenders_iff (hl o (by simp [heq]))).1 ho
  · refine ⟨before, o, after, heq, ?_⟩
    exact (max?_contenders_iff (hl o (by simp [heq]))).2 ho

/-! ### Orders -/

private theorem two_le_countP_iff {α : Type} {p : α → Bool} {l : List α} :
    2 ≤ l.countP p ↔ ∃ before a after, l = before ++ a :: after ∧ p a ∧ ∃ b ∈ before, p b := by
  constructor
  · intro h
    induction l with
    | nil => simp at h
    | cons c l ih =>
      by_cases hc : p c
      · rw [List.countP_cons_of_pos hc] at h
        obtain ⟨a, ha, hpa⟩ := List.countP_pos_iff.1 (show 0 < l.countP p by omega)
        obtain ⟨before, after, rfl⟩ := List.append_of_mem ha
        exact ⟨c :: before, a, after, rfl, hpa, c, List.mem_cons_self, hc⟩
      · rw [List.countP_cons_of_neg hc] at h
        obtain ⟨before, a, after, rfl, hpa, b, hb, hpb⟩ := ih h
        exact ⟨c :: before, a, after, rfl, hpa, b, List.mem_cons_of_mem c hb, hpb⟩
  · rintro ⟨before, a, after, rfl, hpa, b, hb, hpb⟩
    have hbefore : 0 < before.countP p := List.countP_pos_iff.2 ⟨b, hb, hpb⟩
    rw [List.countP_append, List.countP_cons_of_pos hpa]
    omega

private theorem SharesPriority.of_perm (h : SharesPriority l) (hperm : l'.Perm l) : SharesPriority l' := by
  obtain ⟨t, priority, hcount⟩ := h
  exact ⟨t, priority, by rwa [hperm.countP_eq]⟩

private theorem SharesHighest.of_perm (h : SharesHighest l) (hperm : l'.Perm l) : SharesHighest l' := by
  obtain ⟨t, priority, hcount, hle⟩ := h
  exact ⟨t, priority, by rwa [hperm.countP_eq], fun o ho => hle o (hperm.mem_iff.1 ho)⟩

/-- Whoever clashes shares a priority. -/
private theorem sharesPriority_of_clashes (h : Clashes before o) : SharesPriority (before ++ o :: after) := by
  obtain ⟨⟨q, hq, htype, hpriority⟩, -⟩ := h
  refine ⟨o.type, o.priority, two_le_countP_iff.2 ⟨before, o, after, rfl, by simp, q, hq, ?_⟩⟩
  simp [htype, hpriority]

/-- A shared highest priority is noticed in any order. -/
private theorem SharesHighest.exists_clashes (h : SharesHighest l) :
    ∃ before o after, l = before ++ o :: after ∧ Clashes before o := by
  obtain ⟨t, priority, hcount, hle⟩ := h
  obtain ⟨before, o, after, rfl, ho, q, hq, hshares⟩ := two_le_countP_iff.1 hcount
  simp only [decide_eq_true_eq] at ho hshares
  obtain ⟨rfl, rfl⟩ := ho
  exact ⟨before, o, after, rfl, ⟨q, hq, hshares⟩, fun p hp => hle p (List.mem_append_left _ hp)⟩

/-- From the highest priority down, only a shared highest priority is noticed. -/
private theorem sharesHighest_of_clashes (h : Clashes before o)
    (hsorted : (before ++ o :: after).Pairwise fun p q => q.priority ≤ p.priority) :
    SharesHighest (before ++ o :: after) := by
  obtain ⟨⟨q, hq, htype, hpriority⟩, hle⟩ := h
  obtain ⟨-, hafter, -⟩ := List.pairwise_append.1 hsorted
  refine ⟨o.type, o.priority, two_le_countP_iff.2 ⟨before, o, after, rfl, by simp, q, hq, ?_⟩, fun p hp ht => ?_⟩
  · simp [htype, hpriority]
  · rcases List.mem_append.1 hp with hp | hp
    · exact hle p hp ht
    · rcases List.mem_cons.1 hp with rfl | hp
      · exact Int.le_refl _
      · exact (List.pairwise_cons.1 hafter).1 p hp

/-- Building fails at the first converter that has the highest priority of those of its type before it.  That this
happens in all orders or in none, and exactly when two converters of a type have the same priority, is true of the
lists where no priority is shared, or the highest one of some type is. -/
theorem order_independent_iff (s : Store) (ids : List SourceId) (environment : Bool)
    (hl : ∀ o ∈ l, Converter.builtin? o.type = none) :
    (s.Conflicts ids environment l ↔ ∃ before o after, l = before ++ o :: after ∧ Clashes before o) ∧
    (((∀ l', l'.Perm l → (s.Conflicts ids environment l' ↔ s.Conflicts ids environment l)) ∧
        (s.Conflicts ids environment l ↔ SharesPriority l)) ↔
      (SharesPriority l → SharesHighest l)) := by
  have hiff (l' : List Offer) (hperm : l'.Perm l) : s.Conflicts ids environment l' ↔
      ∃ before o after, l' = before ++ o :: after ∧ Clashes before o :=
    conflicts_iff s ids environment fun o ho => hl o (hperm.mem_iff.1 ho)
  refine ⟨hiff l (.refl l), fun ⟨hperms, hshares⟩ hpriority => ?_, fun hcondition => ?_⟩
  · let sorted := l.mergeSort fun p q => q.priority ≤ p.priority
    have hperm : sorted.Perm l := List.mergeSort_perm _ _
    have hsorted : sorted.Pairwise fun p q => q.priority ≤ p.priority := by
      refine (List.pairwise_mergeSort ?_ ?_ l).imp fun h => by simpa using h
      · intro p q o hpq hqo
        simp only [decide_eq_true_eq] at hpq hqo ⊢
        exact Int.le_trans hqo hpq
      · intro p q
        simpa using Int.le_total q.priority p.priority
    obtain ⟨before, o, after, heq, hclashes⟩ := (hiff sorted hperm).1 ((hperms sorted hperm).2 (hshares.2 hpriority))
    rw [heq] at hsorted hperm
    exact (sharesHighest_of_clashes hclashes hsorted).of_perm hperm.symm
  · have hconflicts (l' : List Offer) (hperm : l'.Perm l) : s.Conflicts ids environment l' ↔ SharesPriority l := by
      refine (hiff l' hperm).trans ⟨fun ⟨before, o, after, heq, hclashes⟩ => ?_, fun hpriority => ?_⟩
      · rw [heq] at hperm
        exact (sharesPriority_of_clashes hclashes).of_perm hperm.symm
      · exact ((hcondition hpriority).of_perm hperm).exists_clashes
    have hself := hconflicts l (.refl l)
    exact ⟨fun l' hperm => (hconflicts l' hperm).trans hself.symm, hself⟩

end

/-- A converter for a type of an application. -/
def port (priority : Int) : Offer :=
  ⟨.custom "app::Port", .reading (.custom "app::Port") fun raw => .ok (.custom "app::Port" raw), priority, none⟩

/-- Two converters that share the highest priority conflict in any order. -/
theorem order_independent_iff_ports :
    (∀ o ∈ [port 60, port 50, port 60], Converter.builtin? o.type = none) ∧
      Store.Conflicts (.empty [] FileTree.empty Entries.empty) [] false [port 50, port 60, port 60] := by
  have hl : ∀ o ∈ [port 60, port 50, port 60], Converter.builtin? o.type = none := by simp [port, Converter.builtin?]
  have hhighest : SharesHighest [port 60, port 50, port 60] :=
    ⟨.custom "app::Port", 60, by decide +kernel, by decide +kernel⟩
  have hpriority : SharesPriority [port 60, port 50, port 60] := ⟨.custom "app::Port", 60, by decide +kernel⟩
  obtain ⟨hperms, hshares⟩ :=
    (order_independent_iff (.empty [] FileTree.empty Entries.empty) [] false hl).2.2 fun _ => hhighest
  exact ⟨hl, (hperms _ (List.Perm.swap (port 60) (port 50) [port 60])).2 (hshares.2 hpriority)⟩

/-- With a higher one in between, a shared priority is not noticed. -/
theorem not_conflicts_ports :
    SharesPriority [port 50, port 60, port 50] ∧
      ¬ Store.Conflicts (.empty [] FileTree.empty Entries.empty) [] false [port 50, port 60, port 50] ∧
      [port 50, port 50, port 60].Perm [port 50, port 60, port 50] ∧
      Store.Conflicts (.empty [] FileTree.empty Entries.empty) [] false [port 50, port 50, port 60] := by
  refine ⟨⟨.custom "app::Port", 50, by decide +kernel⟩, ?_, ?_, ⟨_, _, rfl⟩⟩
  · rintro ⟨name, priority, h⟩
    nomatch h
  · exact (List.Perm.swap (port 60) (port 50) []).cons (port 50)

end Registry

end LayeredConfig
