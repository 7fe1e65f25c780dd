import LayeredConfig.Proofs.Session.Handling

/-!
# The listeners of accessors

In every session the accessors have different numbers, and each of their listeners has the one subscription that says
so (`Tidy`).  Then taking a subscription away takes away the listener of its name and no other, and what an accessor
holds is what its account says (`Reflects.handling`).
-/

namespace LayeredConfig.Session

variable {s : Session} {accs : List (String × Held)} {subs : List (String × Subscription)} {next n : Nat}
  {name subscription : String} {held : Held} {acc : Account}

/-! ### Names and numbers -/

/-- Names and numbers tell accessors apart, and each listener is listed under its name. -/
structure Tidy (accs : List (String × Held)) (subs : List (String × Subscription)) (next : Nat) : Prop where
  name_inj : ∀ p ∈ accs, ∀ q ∈ accs, p.1 = q.1 → p = q
  serial_inj : ∀ p ∈ accs, ∀ q ∈ accs, p.2.serial = q.2.serial → p = q
  serial_lt : ∀ p ∈ accs, p.2.serial < next
  listed : ∀ p ∈ accs, ∀ l ∈ p.2.listeners, subs.lookup l.2 = some ⟨p.2.serial, l.1⟩
  accessor_lt : ∀ name σ, subs.lookup name = some σ → σ.accessor < next
  number_lt : ∀ name σ, subs.lookup name = some σ → ∀ p ∈ accs, p.2.serial = σ.accessor → σ.number < p.2.nextListener
  subscription_inj : ∀ name name' σ, subs.lookup name = some σ → subs.lookup name' = some σ → name = name'

/-- What an accessor with the number `n` holds is what its account says; one that is yet to come has a fresh one. -/
structure Reflects (accs : List (String × Held)) (next n : Nat) (acc : Account) : Prop where
  stored : ∀ p ∈ accs, p.2.serial = n → p.2.accessor.memory.value = acc.stored
  listeners : ∀ p ∈ accs, p.2.serial = n → p.2.listeners.map Prod.snd = acc.listeners
  fresh : next ≤ n → acc = .fresh

theorem mem_bind_iff {α : Type} {a : α} {l : List (String × α)} {p : String × α} :
    p ∈ bind name a l ↔ p = (name, a) ∨ p ∈ l ∧ p.1 ≠ name := by
  rw [bind, List.mem_cons, List.mem_filter, decide_eq_true_eq]

/-- Accessors that come from tidy ones, without new names, numbers or listeners. -/
private theorem Tidy.of_forall_exists (h : Tidy accs subs next) {accs' : List (String × Held)}
    (hname : ∀ p ∈ accs', ∀ q ∈ accs', p.1 = q.1 → p = q)
    (hold : ∀ p ∈ accs', ∃ q ∈ accs, q.1 = p.1 ∧ q.2.serial = p.2.serial ∧ p.2.listeners ⊆ q.2.listeners ∧
      q.2.nextListener = p.2.nextListener) : Tidy accs' subs next := by
  refine ⟨hname, fun p hp p' hp' hserial => ?_, fun p hp => ?_, fun p hp l hl => ?_, h.accessor_lt,
    fun name σ hσ p hp hserial => ?_, h.subscription_inj⟩
  · obtain ⟨q, hq, hpname, hpserial, -, -⟩ := hold p hp
    obtain ⟨q', hq', hpname', hpserial', -, -⟩ := hold p' hp'
    have hsame : q = q' := h.serial_inj q hq q' hq' (by rw [hpserial, hpserial', hserial])
    exact hname p hp p' hp' (by rw [← hpname, ← hpname', hsame])
  · obtain ⟨q, hq, -, hserial, -, -⟩ := hold p hp
    exact hserial ▸ h.serial_lt q hq
  · obtain ⟨q, hq, -, hserial, hlisteners, -⟩ := hold p hp
    exact hserial ▸ h.listed q hq l (hlisteners hl)
  · obtain ⟨q, hq, -, hpserial, -, hnumber⟩ := hold p hp
    exact hnumber ▸ h.number_lt name σ hσ q hq (hpserial.trans hserial)

private theorem name_inj_bind (h : ∀ p ∈ accs, ∀ q ∈ accs, p.1 = q.1 → p = q) (held : Held) :
    ∀ p ∈ bind name held accs, ∀ q ∈ bind name held accs, p.1 = q.1 → p = q := by
  intro p hp q hq hname
  rcases mem_bind_iff.1 hp with rfl | ⟨hp, hpname⟩
  · rcases mem_bind_iff.1 hq with rfl | ⟨hq, hqname⟩
    · rfl
    · exact absurd hname.symm hqname
  · rcases mem_bind_iff.1 hq with rfl | ⟨hq, hqname⟩
    · exact absurd hname hpname
    · exact h p hp q hq hname

/-- Reading an accessor leaves its number and its listeners. -/
private theorem Tidy.read (h : Tidy accs subs next) (hheld : (name, held) ∈ accs) (a : Accessor) :
    Tidy (bind name { held with accessor := a } accs) subs next := by
  refine h.of_forall_exists (name_inj_bind h.name_inj _) fun p hp => ?_
  rcases mem_bind_iff.1 hp with rfl | ⟨hp, -⟩
  · exact ⟨(name, held), hheld, rfl, rfl, List.Subset.refl _, rfl⟩
  · exact ⟨p, hp, rfl, rfl, List.Subset.refl _, rfl⟩

private theorem Tidy.unbind (h : Tidy accs subs next) (name : String) : Tidy (unbind name accs) subs next := by
  have hmem {p : String × Held} (hp : p ∈ Session.unbind name accs) : p ∈ accs := (List.mem_filter.1 hp).1
  exact h.of_forall_exists (fun p hp q hq => h.name_inj p (hmem hp) q (hmem hq))
    fun p hp => ⟨p, hmem hp, rfl, rfl, List.Subset.refl _, rfl⟩

private theorem Tidy.built (h : Tidy accs subs next) (name : String) (F : EngineId) (a : Accessor) :
    Tidy (bind name ⟨next, F, a, [], 1⟩ accs) subs (next + 1) := by
  refine ⟨name_inj_bind h.name_inj _, fun p hp q hq hserial => ?_, fun p hp => ?_, fun p hp l hl => ?_,
    fun name σ hσ => Nat.lt_succ_of_lt (h.accessor_lt name σ hσ), fun name σ hσ p hp hserial => ?_,
    h.subscription_inj⟩
  · rcases mem_bind_iff.1 hp with rfl | ⟨hp, -⟩
    · rcases mem_bind_iff.1 hq with rfl | ⟨hq, -⟩
      · rfl
      · exact absurd hserial (Nat.ne_of_gt (h.serial_lt q hq))
    · rcases mem_bind_iff.1 hq with rfl | ⟨hq, -⟩
      · exact absurd hserial (Nat.ne_of_lt (h.serial_lt p hp))
      · exact h.serial_inj p hp q hq hserial
  · rcases mem_bind_iff.1 hp with rfl | ⟨hp, -⟩
    · exact Nat.lt_succ_self next
    · exact Nat.lt_succ_of_lt (h.serial_lt p hp)
  · rcases mem_bind_iff.1 hp with rfl | ⟨hp, -⟩
    · exact absurd hl List.not_mem_nil
    · exact h.listed p hp l hl
  · rcases mem_bind_iff.1 hp with rfl | ⟨hp, -⟩
    · exact absurd hserial (Nat.ne_of_gt (h.accessor_lt name σ hσ))
    · exact h.number_lt name σ hσ p hp hserial

/-! ### Taking a subscription away -/

private theorem mem_accessors_dropSubscription (h : (name, held) ∈ s.accessors) (subscription : String) :
    (name, held.without (s.subscriptions.lookup subscription)) ∈ (dropSubscription s subscription).accessors := by
  rw [accessors_dropSubscription]
  exact List.mem_map.2 ⟨(name, held), h, rfl⟩

private theorem subscriptions_dropSubscription (s : Session) (name name' : String) :
    (dropSubscription s name).subscriptions.lookup name' =
      if name' = name then none else s.subscriptions.lookup name' := by
  unfold dropSubscription
  cases hσ : s.subscriptions.lookup name with
  | none =>
    by_cases hname : name' = name
    · rw [if_pos hname, hname, hσ]
    · rw [if_neg hname]
  | some σ => exact lookup_filter_ne s.subscriptions name name'

/-- What is taken away is the listener of the name. -/
private theorem Tidy.listeners_without (h : Tidy accs subs next) {p : String × Held} (hp : p ∈ accs) (name : String) :
    (p.2.without (subs.lookup name)).listeners = p.2.listeners.filter fun l => l.2 ≠ name := by
  have hself {keep : Nat × String → Bool} (hkeep : ∀ l ∈ p.2.listeners, keep l = true) :
      p.2.listeners = p.2.listeners.filter keep := (List.filter_eq_self.2 hkeep).symm
  cases hσ : subs.lookup name with
  | none =>
    refine hself fun l hl => decide_eq_true ?_
    rintro rfl
    rw [h.listed p hp l hl] at hσ
    cases hσ
  | some σ =>
    by_cases hserial : p.2.serial = σ.accessor
    · rw [Held.without, if_pos hserial]
      refine List.filter_congr fun l hl => decide_eq_decide.2 (not_congr ⟨fun hnumber => ?_, fun hname => ?_⟩)
      · refine h.subscription_inj l.2 name σ ?_ hσ
        rw [h.listed p hp l hl, hserial, hnumber]
      · rw [← hname, h.listed p hp l hl] at hσ
        exact congrArg Subscription.number (Option.some.inj hσ)
    · rw [Held.without, if_neg hserial]
      refine hself fun l hl => decide_eq_true ?_
      rintro rfl
      rw [h.listed p hp l hl] at hσ
      exact hserial (congrArg Subscription.accessor (Option.some.inj hσ))

private theorem Tidy.dropSubscription (h : Tidy s.accessors s.subscriptions s.nextSerial) (name : String) :
    Tidy (dropSubscription s name).accessors (dropSubscription s name).subscriptions s.nextSerial := by
  rw [accessors_dropSubscription]
  have hmem {p : String × Held} (hp : p ∈ s.accessors.map fun p => (p.1, p.2.without (s.subscriptions.lookup name))) :
      ∃ q ∈ s.accessors, q.1 = p.1 ∧ q.2.without (s.subscriptions.lookup name) = p.2 := by
    obtain ⟨q, hq, rfl⟩ := List.mem_map.1 hp
    exact ⟨q, hq, rfl, rfl⟩
  have htidy : Tidy (s.accessors.map fun p => (p.1, p.2.without (s.subscriptions.lookup name))) s.subscriptions
      s.nextSerial := by
    refine h.of_forall_exists (fun p hp p' hp' hname => ?_) fun p hp => ?_
    · obtain ⟨q, hq, hqname, hqheld⟩ := hmem hp
      obtain ⟨q', hq', hqname', hqheld'⟩ := hmem hp'
      have hsame : q = q' := h.name_inj q hq q' hq' (by rw [hqname, hqname', hname])
      exact Prod.ext hname (by rw [← hqheld, ← hqheld', hsame])
    · obtain ⟨q, hq, hqname, hqheld⟩ := hmem hp
      refine ⟨q, hq, hqname, ?_, ?_, ?_⟩
      · rw [← hqheld, Held.serial_without]
      · rw [← hqheld, h.listeners_without hq]
        exact List.filter_sublist.subset
      · rw [← hqheld, Held.nextListener_without]
  have hlookup {name' : String} {σ : Subscription}
      (hσ : (Session.dropSubscription s name).subscriptions.lookup name' = some σ) :
      s.subscriptions.lookup name' = some σ := by
    rw [subscriptions_dropSubscription] at hσ
    split at hσ
    · cases hσ
    · exact hσ
  refine ⟨htidy.name_inj, htidy.serial_inj, htidy.serial_lt, fun p hp l hl => ?_,
    fun _ _ hσ => htidy.accessor_lt _ _ (hlookup hσ), fun _ _ hσ => htidy.number_lt _ _ (hlookup hσ),
    fun _ _ _ hσ hσ' => htidy.subscription_inj _ _ _ (hlookup hσ) (hlookup hσ')⟩
  -- A listener that is left has another name.
  obtain ⟨q, hq, -, hqheld⟩ := hmem hp
  have hkept := hl
  rw [← hqheld, h.listeners_without hq] at hkept
  rw [subscriptions_dropSubscription, if_neg (of_decide_eq_true (List.mem_filter.1 hkept).2)]
  exact htidy.listed p hp l hl

private theorem Reflects.dropSubscription (h : Reflects s.accessors s.nextSerial n acc)
    (htidy : Tidy s.accessors s.subscriptions s.nextSerial) (name : String) :
    Reflects (dropSubscription s name).accessors s.nextSerial n (acc.without name) := by
  rw [accessors_dropSubscription]
  refine ⟨fun p hp hserial => ?_, fun p hp hserial => ?_, fun hn => ?_⟩
  · obtain ⟨q, hq, rfl⟩ := List.mem_map.1 hp
    rw [Held.serial_without] at hserial
    exact (congrArg (fun a => a.memory.value) (Held.accessor_without _ q.2)).trans (h.stored q hq hserial)
  · obtain ⟨q, hq, rfl⟩ := List.mem_map.1 hp
    rw [Held.serial_without] at hserial
    rw [htidy.listeners_without hq, Account.without, ← h.listeners q hq hserial, List.filter_map]
    rfl
  · rw [h.fresh hn]
    rfl

/-! ### One more listener -/

theorem Tidy.serial_ne (h : Tidy accs subs next) (hheld : (name, held) ∈ accs) {p : String × Held} (hp : p ∈ accs)
    (hname : p.1 ≠ name) : p.2.serial ≠ held.serial :=
  fun hserial => hname (congrArg Prod.fst (h.serial_inj p hp (name, held) hheld hserial))

/-- An accessor that is replaced by one of its number is still the only one with it. -/
private theorem Tidy.serial_inj_bind (h : Tidy accs subs next) (hheld : (name, held) ∈ accs) {held' : Held}
    (hserial : held'.serial = held.serial) :
    ∀ p ∈ bind name held' accs, ∀ q ∈ bind name held' accs, p.2.serial = q.2.serial → p = q := by
  intro p hp q hq hsame
  rcases mem_bind_iff.1 hp with rfl | ⟨hp, hpname⟩
  · rcases mem_bind_iff.1 hq with rfl | ⟨hq, hqname⟩
    · rfl
    · exact absurd (hsame.symm.trans hserial) (h.serial_ne hheld hq hqname)
  · rcases mem_bind_iff.1 hq with rfl | ⟨hq, hqname⟩
    · exact absurd (hsame.trans hserial) (h.serial_ne hheld hp hpname)
    · exact h.serial_inj p hp q hq hsame

private theorem Tidy.listenedBy (h : Tidy accs subs next) (hheld : (name, held) ∈ accs)
    (hnew : subs.lookup subscription = none) :
    Tidy (bind name (held.listenedBy subscription) accs)
      (bind subscription ⟨held.serial, held.nextListener⟩ subs) next := by
  have hlookup (name' : String) : (bind subscription ⟨held.serial, held.nextListener⟩ subs).lookup name' =
      if name' = subscription then some ⟨held.serial, held.nextListener⟩ else subs.lookup name' :=
    lookup_put subs subscription name' _
  have hlisted {p : String × Held} (hp : p ∈ accs) {l : Nat × String} (hl : l ∈ p.2.listeners) :
      (bind subscription ⟨held.serial, held.nextListener⟩ subs).lookup l.2 = some ⟨p.2.serial, l.1⟩ := by
    have hold := h.listed p hp l hl
    rw [hlookup, if_neg, hold]
    rintro rfl
    rw [hnew] at hold
    cases hold
  -- The new subscription is none of the old ones: their numbers are smaller.
  have hfresh {name' : String} {σ : Subscription} (hσ : subs.lookup name' = some σ) :
      σ ≠ ⟨held.serial, held.nextListener⟩ := by
    rintro rfl
    exact Nat.lt_irrefl _ (h.number_lt name' _ hσ (name, held) hheld rfl)
  refine ⟨name_inj_bind h.name_inj _, h.serial_inj_bind hheld rfl, fun p hp => ?_, fun p hp l hl => ?_,
    fun name' σ hσ => ?_, fun name' σ hσ p hp hserial => ?_, fun name' name'' σ hσ hσ' => ?_⟩
  · rcases mem_bind_iff.1 hp with rfl | ⟨hp, -⟩
    · exact h.serial_lt (name, held) hheld
    · exact h.serial_lt p hp
  · rcases mem_bind_iff.1 hp with rfl | ⟨hp, -⟩
    · rcases List.mem_append.1 hl with hl | hl
      · exact hlisted hheld hl
      · obtain rfl := List.mem_singleton.1 hl
        rw [hlookup, if_pos rfl]
        rfl
    · exact hlisted hp hl
  · rw [hlookup] at hσ
    split at hσ
    · obtain rfl := Option.some.inj hσ
      exact h.serial_lt _ hheld
    · exact h.accessor_lt name' σ hσ
  · rw [hlookup] at hσ
    rcases mem_bind_iff.1 hp with rfl | ⟨hp, hpname⟩
    · show σ.number < held.nextListener + 1
      split at hσ
      · obtain rfl := Option.some.inj hσ
        exact Nat.lt_succ_self _
      · exact Nat.lt_succ_of_lt (h.number_lt name' σ hσ (name, held) hheld hserial)
    · split at hσ
      · obtain rfl := Option.some.inj hσ
        exact absurd hserial (h.serial_ne hheld hp hpname)
      · exact h.number_lt name' σ hσ p hp hserial
  · rw [hlookup] at hσ hσ'
    split at hσ
    · rename_i hname
      obtain rfl := Option.some.inj hσ
      split at hσ'
      · rename_i hname'
        rw [hname, hname']
      · exact absurd rfl (hfresh hσ')
    · split at hσ'
      · obtain rfl := Option.some.inj hσ'
        exact absurd rfl (hfresh hσ)
      · exact h.subscription_inj name' name'' σ hσ hσ'

/-- An accessor is replaced by what its new account says. -/
private theorem Reflects.replaced (h : Reflects accs next n acc) (htidy : Tidy accs subs next)
    (hheld : (name, held) ∈ accs) {held' : Held} {acc' : Account} (hserial : held'.serial = held.serial)
    (hself : held.serial = n → held'.accessor.memory.value = acc'.stored ∧
      held'.listeners.map Prod.snd = acc'.listeners)
    (hother : held.serial ≠ n → acc' = acc) : Reflects (bind name held' accs) next n acc' := by
  have hcases {p : String × Held} (hp : p ∈ bind name held' accs) (hpn : p.2.serial = n) :
      p = (name, held') ∧ held.serial = n ∨ p ∈ accs ∧ acc' = acc := by
    rcases mem_bind_iff.1 hp with rfl | ⟨hp, hname⟩
    · exact .inl ⟨rfl, hserial.symm.trans hpn⟩
    · exact .inr ⟨hp, hother fun hn => htidy.serial_ne hheld hp hname (hpn.trans hn.symm)⟩
  refine ⟨fun p hp hpn => ?_, fun p hp hpn => ?_, fun hn => ?_⟩
  · rcases hcases hp hpn with ⟨rfl, hn⟩ | ⟨hp, rfl⟩
    · exact (hself hn).1
    · exact h.stored p hp hpn
  · rcases hcases hp hpn with ⟨rfl, hn⟩ | ⟨hp, rfl⟩
    · exact (hself hn).2
    · exact h.listeners p hp hpn
  · rw [hother (Nat.ne_of_lt (Nat.lt_of_lt_of_le (htidy.serial_lt _ hheld) hn))]
    exact h.fresh hn

private theorem Reflects.listenedBy (h : Reflects accs next n acc) (htidy : Tidy accs subs next)
    (hheld : (name, held) ∈ accs) (subscription : String) :
    Reflects (bind name (held.listenedBy subscription) accs) next n
      (if held.serial = n then acc.listenedBy subscription else acc) := by
  refine h.replaced htidy hheld rfl (fun hn => ?_) fun hn => if_neg hn
  rw [if_pos hn, Account.listenedBy, ← h.listeners _ hheld hn]
  exact ⟨h.stored _ hheld hn, List.map_append⟩

/-- A new subscription takes the place of an old one of its name, and is not taken away with it. -/
private theorem Held.without_listenedBy {σ : Option Subscription}
    (h : ∀ τ, σ = some τ → held.serial = τ.accessor → τ.number < held.nextListener) (subscription : String) :
    (held.listenedBy subscription).without σ = (held.without σ).listenedBy subscription := by
  cases σ with
  | none => rfl
  | some τ =>
    by_cases hserial : held.serial = τ.accessor
    · have hne : held.nextListener ≠ τ.number := Nat.ne_of_gt (h τ rfl hserial)
      have hserial' : (held.listenedBy subscription).serial = τ.accessor := hserial
      rw [without, without, if_pos hserial, if_pos hserial', listenedBy, listenedBy]
      dsimp only
      rw [List.filter_append, List.filter_cons_of_pos (by simpa using hne), List.filter_nil]
    · have hserial' : ¬ (held.listenedBy subscription).serial = τ.accessor := hserial
      rw [without, without, if_neg hserial, if_neg hserial']

theorem accessors_stepSubscribe (h : Tidy s.accessors s.subscriptions s.nextSerial)
    (hheld : (name, held) ∈ s.accessors) (subscription : String) :
    (stepSubscribe s name subscription held).session.accessors =
      bind name ((held.without (s.subscriptions.lookup subscription)).listenedBy subscription)
        (dropSubscription s subscription).accessors := by
  have hdropped := accessors_dropSubscription
    { s with accessors := bind name (held.listenedBy subscription) s.accessors } subscription
  refine hdropped.trans ?_
  rw [accessors_dropSubscription, bind, bind, List.map_cons, List.filter_map]
  dsimp only
  rw [Held.without_listenedBy fun τ hτ hserial => h.number_lt subscription τ hτ (name, held) hheld hserial]
  rfl

private theorem subscriptions_stepSubscribe (s : Session) (name subscription : String) (held : Held) :
    (stepSubscribe s name subscription held).session.subscriptions =
      bind subscription ⟨held.serial, held.nextListener⟩ (dropSubscription s subscription).subscriptions := by
  unfold stepSubscribe answer
  dsimp only
  unfold dropSubscription
  dsimp only
  split <;> rfl

/-! ### All steps -/

theorem Tidy.handling (h : Tidy s.accessors s.subscriptions s.nextSerial) {taken : Step} {calls : List Event}
    (hhandling : Handling s taken accs subs next calls) : Tidy accs subs next := by
  cases hhandling with
  | nothing => exact h
  | built he ha => exact h.built _ _ _
  | read hkind hfound => exact h.read (mem_of_lookup (of_found? hfound).1) _
  | rawRead hfound => exact h.read (mem_of_lookup (of_found? hfound).1) _
  | @subscribed name subscription held e hfound =>
    have hheld := mem_of_lookup (of_found? hfound).1
    rw [accessors_stepSubscribe h hheld, subscriptions_stepSubscribe]
    have hmem := mem_accessors_dropSubscription hheld subscription
    have hnew : (Session.dropSubscription s subscription).subscriptions.lookup subscription = none := by
      rw [subscriptions_dropSubscription, if_pos rfl]
    have hlistened := (h.dropSubscription subscription).listenedBy hmem hnew
    rwa [Held.serial_without, Held.nextListener_without] at hlistened
  | unsubscribed => exact h.dropSubscription _
  | dropped => exact h.unbind _

private theorem Reflects.read (h : Reflects accs next n acc) (htidy : Tidy accs subs next) (hheld : (name, held) ∈ accs)
    (a : Accessor) :
    Reflects (bind name { held with accessor := a } accs) next n
      (if held.serial = n then { acc with stored := a.memory.value } else acc) := by
  refine h.replaced htidy hheld rfl (fun hn => ?_) fun hn => if_neg hn
  rw [if_pos hn]
  exact ⟨rfl, h.listeners _ hheld hn⟩

private theorem Reflects.read_of_value_eq (h : Reflects accs next n acc) (htidy : Tidy accs subs next)
    (hheld : (name, held) ∈ accs) {a : Accessor} (ha : a.memory.value = held.accessor.memory.value) :
    Reflects (bind name { held with accessor := a } accs) next n acc :=
  h.replaced htidy hheld rfl (fun hn => ⟨ha.trans (h.stored _ hheld hn), h.listeners _ hheld hn⟩) fun _ => rfl

/-- What an accessor holds goes on being what its account says. -/
theorem Reflects.handling (h : Reflects s.accessors s.nextSerial n acc)
    (htidy : Tidy s.accessors s.subscriptions s.nextSerial) {taken : Step} {calls : List Event}
    (hhandling : Handling s taken accs subs next calls) : Reflects accs next n (acc.after n s taken) := by
  cases hhandling with
  | nothing hquiet =>
    rw [hquiet.account]
    exact h
  | @built name engine key steps F e a he ha =>
    have hsame : acc.after n s (.accessor name engine key steps) = acc := rfl
    rw [hsame]
    have hfresh {p : String × Held} (hp : p ∈ bind name ⟨s.nextSerial, F, a, [], 1⟩ s.accessors) (hpn : p.2.serial = n) :
        p = (name, ⟨s.nextSerial, F, a, [], 1⟩) ∧ acc = .fresh ∨ p ∈ s.accessors := by
      rcases mem_bind_iff.1 hp with rfl | ⟨hp, -⟩
      · exact .inl ⟨rfl, h.fresh (Nat.le_of_eq hpn)⟩
      · exact .inr hp
    refine ⟨fun p hp hpn => ?_, fun p hp hpn => ?_, fun hn => h.fresh (Nat.le_of_succ_le hn)⟩
    · rcases hfresh hp hpn with ⟨rfl, rfl⟩ | hp
      · exact congrArg Accessor.Memory.value (Accessor.memory_of_build ha)
      · exact h.stored p hp hpn
    · rcases hfresh hp hpn with ⟨rfl, rfl⟩ | hp
      · rfl
      · exact h.listeners p hp hpn
  | @read name kind held e hkind hfound =>
    have hheld := mem_of_lookup (of_found? hfound).1
    obtain ⟨hvalue, -, -⟩ := Accessor.optionalValue_eq (s.store.view e) e.registry held.accessor
    rw [Account.after.eq_def]
    dsimp only
    rw [recomputed?_read hkind hfound]
    cases hresult : held.accessor.recomputed? (s.store.view e) e.registry with
    | none =>
      rw [hresult] at hvalue
      exact h.read_of_value_eq htidy hheld hvalue
    | some value =>
      rw [hresult] at hvalue
      have hread := h.read htidy hheld (held.accessor.optionalValue (s.store.view e) e.registry).accessor
      rw [hvalue] at hread
      exact hread
  | @rawRead name held e hfound =>
    exact h.read_of_value_eq htidy (mem_of_lookup (of_found? hfound).1)
      (Accessor.rawValue_eq (s.store.view e) e.registry held.accessor).1
  | @subscribed name subscription held e hfound =>
    have hheld := mem_of_lookup (of_found? hfound).1
    rw [accessors_stepSubscribe htidy hheld]
    have hmem := mem_accessors_dropSubscription hheld subscription
    have hlistened := (h.dropSubscription htidy subscription).listenedBy (htidy.dropSubscription subscription) hmem
      subscription
    rw [Held.serial_without] at hlistened
    have hafter : acc.after n s (.subscribe name subscription) =
        if held.serial = n then (acc.without subscription).listenedBy subscription else acc.without subscription := by
      rw [Account.after, hfound]
    rw [hafter]
    exact hlistened
  | unsubscribed => exact h.dropSubscription htidy _
  | @dropped name =>
    have hmem {p : String × Held} (hp : p ∈ unbind name s.accessors) : p ∈ s.accessors := (List.mem_filter.1 hp).1
    exact ⟨fun p hp => h.stored p (hmem hp), fun p hp => h.listeners p (hmem hp), h.fresh⟩

end LayeredConfig.Session
