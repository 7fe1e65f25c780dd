import LayeredConfig.Proofs.Registry.Calls

/-!
# Which registration is active

A registry compares a new registration with the active one of its type and nothing else.  Over a whole history of
calls the active one is nevertheless the first of those with the highest priority (`Foremost`).  `Tracks` is the
invariant: what is active is a running maximum (`expected?`) that a built-in converter starts.
-/

namespace LayeredConfig.Registry

/-- The converters that a history registers for a type, whether a registry accepts them or not. -/
def offers (t : ValueType) (history : List Call) : List Offer :=
  history.filterMap fun
    | .register o => if o.type = t then some o else none
    | _ => none

/-- Those of them that a built-in converter of the type yields to, which are all if it has none. -/
def contenders (builtins : Bool) (t : ValueType) (history : List Call) : List Offer :=
  (offers t history).filter fun o => (builtin? builtins t).isNone || builtinPriority ≤ o.priority

/-- The first contender of the highest priority, or else the built-in converter. -/
def expected? (builtins : Bool) (t : ValueType) (history : List Call) : Option Registration :=
  (((contenders builtins t history).maxOn? Offer.priority).map Offer.registration).or (builtin? builtins t)

/-- The entry of the first contender of the highest priority, or the built-in one where there is no contender. -/
inductive Foremost (builtins : Bool) (t : ValueType) (history : List Call) : Option Registration → Prop
  | builtin (hnone : contenders builtins t history = []) : Foremost builtins t history (builtin? builtins t)
  | contender {before after : List Offer} {q : Offer} (heq : contenders builtins t history = before ++ q :: after)
    (hbefore : ∀ o ∈ before, o.priority < q.priority) (hafter : ∀ o ∈ after, o.priority ≤ q.priority) :
    Foremost builtins t history (some q.registration)

/-- Whether a converter goes before all contenders and the built-in converter of its type. -/
def Offer.Prevails (builtins : Bool) (history : List Call) (o : Offer) : Prop :=
  (∀ q ∈ contenders builtins o.type history, q.priority < o.priority) ∧
    ((builtin? builtins o.type).isSome → builtinPriority ≤ o.priority)

instance (builtins : Bool) (history : List Call) (o : Offer) : Decidable (o.Prevails builtins history) :=
  inferInstanceAs (Decidable (_ ∧ _))

section

variable {builtins : Bool} {t : ValueType} {history : List Call} {o q : Offer} {r : Registry} {l : List Offer}

/-! ### The first of the highest priority -/

private theorem le_of_maxOn? (hq : l.maxOn? Offer.priority = some q) (ho : o ∈ l) : o.priority ≤ q.priority := by
  have hle := List.le_apply_get_maxOn?_of_mem (f := Offer.priority) ho
  simpa [hq] using hle

/-- A later converter comes first only with a higher priority. -/
private theorem maxOn?_concat (hq : l.maxOn? Offer.priority = some q) (a : Offer) :
    (l ++ [a]).maxOn? Offer.priority = if q.priority < a.priority then some a else some q := by
  rw [List.maxOn?_append, hq, List.maxOn?_singleton, Option.merge_some_some, maxOn_eq_if]
  by_cases hlt : q.priority < a.priority
  · rw [if_pos hlt, if_neg (Int.not_le.2 hlt)]
  · rw [if_neg hlt, if_pos (Int.not_lt.1 hlt)]

private theorem maxOn?_eq_none (h : l.maxOn? Offer.priority = none) : l = [] := by
  have hnone : ¬ (l.maxOn? Offer.priority).isSome := by simp [h]
  rwa [List.isSome_maxOn?_iff, Decidable.not_not] at hnone

/-- What stands before the first of the highest priority is lower. -/
private theorem exists_append_of_maxOn? (hq : l.maxOn? Offer.priority = some q) :
    ∃ before after, l = before ++ q :: after ∧
      (∀ o ∈ before, o.priority < q.priority) ∧ ∀ o ∈ after, o.priority ≤ q.priority := by
  induction l with
  | nil => simp at hq
  | cons a l ih =>
    rw [List.maxOn?_cons, Option.some.injEq] at hq
    cases hl : l.maxOn? Offer.priority with
    | none =>
      rw [hl, Option.elim_none] at hq
      exact ⟨[], l, by rw [hq, List.nil_append], by simp, by simp [maxOn?_eq_none hl]⟩
    | some p =>
      rw [hl, Option.elim_some, maxOn_eq_if] at hq
      split at hq
      · rename_i hle
        subst hq
        exact ⟨[], l, rfl, by simp, fun o ho => Int.le_trans (le_of_maxOn? hl ho) hle⟩
      · rename_i hlt
        subst hq
        obtain ⟨before, after, rfl, hbefore, hafter⟩ := ih hl
        exact ⟨a :: before, after, rfl, List.forall_mem_cons.2 ⟨Int.not_le.1 hlt, hbefore⟩, hafter⟩

/-! ### What is expected -/

private theorem contenders_concat_register (history : List Call) (o : Offer) :
    contenders builtins t (history ++ [.register o]) = contenders builtins t history ++
      if o.type = t ∧ ((builtin? builtins t).isSome → builtinPriority ≤ o.priority) then [o] else [] := by
  rw [contenders, offers, List.filterMap_append, List.filter_append]
  congr 1
  by_cases ht : o.type = t
  · cases hbuiltin : builtin? builtins t with
    | none => simp [ht]
    | some b => simp [ht, List.filter_cons]
  · simp [ht]

private theorem contenders_concat_of_not_register {call : Call} (h : ∀ o, call ≠ .register o) :
    contenders builtins t (history ++ [call]) = contenders builtins t history := by
  rw [contenders, offers, List.filterMap_append]
  cases call with
  | register o => exact absurd rfl (h o)
  | convert u raw => simp [contenders, offers]
  | has u => simp [contenders, offers]

private theorem priority_of_mem_contenders (hq : q ∈ contenders builtins t history)
    (hb : (builtin? builtins t).isSome) : builtinPriority ≤ q.priority := by
  obtain ⟨-, hcounts⟩ := List.mem_filter.1 hq
  rw [Option.isNone_eq_false_iff.2 hb] at hcounts
  simpa using hcounts

/-- A converter goes before all when it goes before the first of the highest priority. -/
private theorem prevails_iff_of_maxOn? (hq : (contenders builtins o.type history).maxOn? Offer.priority = some q) :
    o.Prevails builtins history ↔ q.priority < o.priority := by
  have hmem := List.maxOn?_mem hq
  refine ⟨fun h => h.1 q hmem, fun h => ⟨fun p hp => ?_, fun hb => ?_⟩⟩
  · exact Int.lt_of_le_of_lt (le_of_maxOn? hq hp) h
  · exact Int.le_trans (priority_of_mem_contenders hmem hb) (Int.le_of_lt h)

private theorem max?_of_maxOn? (hq : l.maxOn? Offer.priority = some q) :
    (l.map Offer.priority).max? = some q.priority := by
  rw [List.max?_eq_some_iff]
  refine ⟨List.mem_map_of_mem (List.maxOn?_mem hq), fun p hp => ?_⟩
  obtain ⟨o, ho, rfl⟩ := List.mem_map.1 hp
  exact le_of_maxOn? hq ho

private theorem foremost_expected? (builtins : Bool) (t : ValueType) (history : List Call) :
    Foremost builtins t history (expected? builtins t history) := by
  unfold expected?
  cases hq : (contenders builtins t history).maxOn? Offer.priority with
  | none =>
    rw [Option.map_none, Option.none_or]
    exact .builtin (maxOn?_eq_none hq)
  | some q =>
    obtain ⟨before, after, heq, hbefore, hafter⟩ := exists_append_of_maxOn? hq
    exact .contender heq hbefore hafter

/-! ### One call -/

/-- One more registration changes what is expected for its type, if it goes before all. -/
private theorem expected?_concat_register (history : List Call) (o : Offer) :
    expected? builtins t (history ++ [.register o]) =
      if t = o.type ∧ o.Prevails builtins history then some o.registration else expected? builtins t history := by
  rw [expected?, contenders_concat_register]
  by_cases ht : t = o.type
  · subst ht
    cases hq : (contenders builtins o.type history).maxOn? Offer.priority with
    | none =>
      have hq := maxOn?_eq_none hq
      by_cases hcounts : (builtin? builtins o.type).isSome → builtinPriority ≤ o.priority
      · have hprevails : o.Prevails builtins history := ⟨by simp [hq], hcounts⟩
        rw [if_pos ⟨rfl, hcounts⟩, if_pos ⟨rfl, hprevails⟩, hq]
        rfl
      · have hprevails : ¬ o.Prevails builtins history := fun h => hcounts h.2
        rw [if_neg fun h => hcounts h.2, if_neg fun h => hprevails h.2, List.append_nil, expected?]
    | some q =>
      have hprevails := prevails_iff_of_maxOn? hq
      by_cases hlt : q.priority < o.priority
      · have hcounts : (builtin? builtins o.type).isSome → builtinPriority ≤ o.priority := (hprevails.2 hlt).2
        rw [if_pos ⟨rfl, hcounts⟩, if_pos ⟨rfl, hprevails.2 hlt⟩, maxOn?_concat hq, if_pos hlt]
        rfl
      · have hloses : ¬ (o.type = o.type ∧ o.Prevails builtins history) := fun h => hlt (hprevails.1 h.2)
        rw [if_neg hloses, expected?]
        split
        · rw [maxOn?_concat hq, if_neg hlt, hq]
        · rw [List.append_nil]
  · rw [if_neg fun h => ht h.1.symm, if_neg fun h => ht h.1, List.append_nil, expected?]

private theorem expected?_concat_of_not_register {call : Call} (h : ∀ o, call ≠ .register o) :
    expected? builtins t (history ++ [call]) = expected? builtins t history := by
  rw [expected?, contenders_concat_of_not_register h, expected?]

/-- What is active in a registry is what is expected after a history. -/
def Tracks (builtins : Bool) (history : List Call) (r : Registry) : Prop :=
  ∀ t, r.active? t = expected? builtins t history

/-- A registration conflicts with the highest priority before it, else takes effect if it goes before all. -/
theorem Tracks.register_eq (h : Tracks builtins history r) (o : Offer) :
    r.register o.type o.registration =
      if ((contenders builtins o.type history).map Offer.priority).max? = some o.priority then
        .error (.conflictingPriority o.type.fullName o.priority)
      else .ok (if o.Prevails builtins history then r.accept o.type o.registration else r) := by
  have hactive := h o.type
  cases hq : (contenders builtins o.type history).maxOn? Offer.priority with
  | none =>
    rw [expected?, hq, Option.map_none, Option.none_or] at hactive
    have hq := maxOn?_eq_none hq
    rw [hq, List.map_nil, List.max?_nil, if_neg (by simp), register, hactive]
    cases hb : builtin? builtins o.type with
    | none =>
      have hprevails : o.Prevails builtins history := ⟨by simp [hq], by simp [hb]⟩
      rw [if_pos hprevails]
    | some b =>
      obtain ⟨hbuiltin, hpriority⟩ := of_builtin? hb
      have hprevails : o.Prevails builtins history ↔ builtinPriority ≤ o.priority := by
        simp [Offer.Prevails, hq, hb]
      by_cases hle : builtinPriority ≤ o.priority
      · rw [if_pos (hprevails.2 hle)]
        simp [hbuiltin, hpriority, Offer.registration, hle]
      · rw [if_neg fun h => hle (hprevails.1 h)]
        simp [hbuiltin, hpriority, Offer.registration, hle]
  | some q =>
    have hprevails := prevails_iff_of_maxOn? hq
    rw [expected?, hq, Option.map_some, Option.some_or] at hactive
    rw [max?_of_maxOn? hq, register, hactive]
    by_cases heq : o.priority = q.priority
    · simp [Offer.registration, heq]
    · by_cases hlt : q.priority < o.priority
      · rw [if_pos (hprevails.2 hlt)]
        simp [Offer.registration, heq, Ne.symm heq, hlt]
      · rw [if_neg fun h => hlt (hprevails.1 h)]
        simp [Offer.registration, heq, Ne.symm heq, hlt]

theorem Tracks.run_register (h : Tracks builtins history r) (o : Offer) :
    (Call.register o).run r =
      if ((contenders builtins o.type history).map Offer.priority).max? = some o.priority then
        (.registered (.error (.conflictingPriority o.type.fullName o.priority)), r)
      else (.registered (.ok ()), if o.Prevails builtins history then r.accept o.type o.registration else r) := by
  rw [Call.run, h.register_eq o]
  by_cases hmax : ((contenders builtins o.type history).map Offer.priority).max? = some o.priority
  · rw [if_pos hmax, if_pos hmax]
  · rw [if_neg hmax, if_neg hmax]

/-! ### Runs -/

theorem Tracks.step (h : Tracks builtins history r) (call : Call) :
    Tracks builtins (history ++ [call]) (call.run r).2 := by
  intro t
  cases call with
  | register o =>
    have hconflict (hmax : ((contenders builtins o.type history).map Offer.priority).max? = some o.priority) :
        ¬ o.Prevails builtins history := by
      obtain ⟨q, hq, heq⟩ := List.mem_map.1 (List.max?_eq_some_iff.1 hmax).1
      exact fun hprevails => absurd (hprevails.1 q hq) (by omega)
    rw [expected?_concat_register, h.run_register o, ← h t]
    by_cases hprevails : o.Prevails builtins history
    · rw [if_neg fun hmax => hconflict hmax hprevails, if_pos hprevails]
      simp [active?_accept, hprevails]
    · have hloses : ¬ (t = o.type ∧ o.Prevails builtins history) := fun ht => hprevails ht.2
      rw [if_neg hprevails, if_neg hloses]
      split <;> rfl
  | convert u raw =>
    rw [expected?_concat_of_not_register (by simp), ← h t, active?, active?]
    exact congrArg (List.lookup t) (asked_convert r u raw).extends.registered
  | has u =>
    rw [expected?_concat_of_not_register (by simp), ← h t, active?, active?]
    exact congrArg (List.lookup t) (asked_hasConverter r u).extends.registered

private theorem Tracks.after (h : Tracks builtins history r) (calls : List Call) :
    Tracks builtins (history ++ calls) (r.after calls) := by
  induction calls generalizing history r with
  | nil => rwa [List.append_nil]
  | cons call calls ih =>
    have hcalls := ih (h.step call)
    rwa [List.append_assoc] at hcalls

theorem Tracks.initial (customTypes : List CustomType) (builtins : Bool) :
    Tracks builtins [] (initial customTypes builtins) :=
  fun t => active?_initial customTypes builtins t

theorem tracks_after (customTypes : List CustomType) (builtins : Bool) (history : List Call) :
    Tracks builtins history ((initial customTypes builtins).after history) :=
  (Tracks.initial customTypes builtins).after history

end

/-- After any calls on a new registry, the active registration of every type is the first of the highest priority, or
else the built-in one.  One more registration conflicts if its priority is the highest so far, becomes active if it
goes before all, and otherwise leaves the registry as it was, so later calls answer as if it had not been made. -/
theorem precedence_after (customTypes : List CustomType) (builtins : Bool) (history : List Call) (o : Offer) :
    let r := (initial customTypes builtins).after history
    let p := (Call.register o).run r
    (∀ t, Foremost builtins t history (r.active? t)) ∧
    p.1 = .registered
      (if ((contenders builtins o.type history).map Offer.priority).max? = some o.priority then
        .error (.conflictingPriority o.type.fullName o.priority)
      else .ok ()) ∧
    (o.Prevails builtins history → p.2.active? o.type = some o.registration) ∧
    (¬ o.Prevails builtins history →
      p.2 = r ∧ ∀ later, (r.replies (.register o :: later)).tail = r.replies later) := by
  intro r p
  have htracks : Tracks builtins history r := (Tracks.initial customTypes builtins).after history
  have hrun : p = _ := htracks.run_register o
  have hnext : p.2.active? o.type = _ := htracks.step (.register o) o.type
  refine ⟨fun t => htracks t ▸ foremost_expected? builtins t history, ?_, fun hprevails => ?_, fun hloses => ?_⟩
  · rw [hrun]
    split <;> rfl
  · rw [hnext, expected?_concat_register, if_pos ⟨rfl, hprevails⟩]
  · have hkept : p.2 = r := by
      rw [hrun, if_neg hloses]
      split <;> rfl
    exact ⟨hkept, fun later => congrArg (replies · later) hkept⟩

/-- Calls of which the third makes a converter active, in place of the built-in one. -/
def overriding : List Call :=
  [.register ⟨.bool, .reading .bool fun _ => .ok (.bool false), 0, none⟩, .convert .bool (some "yes"),
   .register ⟨.bool, .reading .bool fun _ => .ok (.bool true), 5, none⟩, .has .text,
   .register ⟨.text, .reading .text fun raw => .ok (.text raw), 7, none⟩]

/-- A converter of the same priority conflicts with it, and changes nothing. -/
theorem precedence_after_overriding :
    let r := (initial [] true).after overriding
    let p := (Call.register ⟨.bool, .reading .bool fun _ => .ok (.bool false), 5, none⟩).run r
    p.1 = .registered (.error (.conflictingPriority "bool" 5)) ∧ p.2 = r := by
  intro r p
  obtain ⟨-, hreply, -, hkept⟩ := precedence_after [] true overriding
    ⟨.bool, .reading .bool fun _ => .ok (.bool false), 5, none⟩
  refine ⟨hreply, (hkept ?_).1⟩
  decide +kernel

end LayeredConfig.Registry
