import LayeredConfig.Proofs.Accessor.Origins
import LayeredConfig.Proofs.Session.Notifying

/-!
# Which key an accessor reports

An accessor keeps one key for two kinds of reads.  A read with conversion puts down the key that it worked its result
out from, together with the result; a read without conversion puts down its key alone.  So the key that is reported
with a result is the one that the result was worked out from, unless a read without conversion found another one since
and the result was served from memory (`reportedKey_after`).  Like all results about sessions this speaks of reads that
return.
-/

namespace LayeredConfig

/-- The trail after a read of some kind. -/
def Accessor.Trail.readAs (v : View) (r : Registry) (a : Accessor) (t : Accessor.Trail) :
    Session.ReadKind → Accessor.Trail
  | .value | .optional => t.read v r a
  | .raw => t.readRaw v r a
  | _ => t

/-- The accessor after a read of some kind. -/
def Accessor.readAs (v : View) (r : Registry) (a : Accessor) : Session.ReadKind → Accessor
  | .value | .optional => (a.optionalValue v r).accessor
  | .raw => (a.rawValue v r).accessor
  | _ => a

namespace Session

open Accessor (Trail)

variable {s : Session} {n : Nat} {name : String} {kind : ReadKind} {held : Held} {e : Engine} {taken : Step}
  {trail : Nat → Trail}

/-- The trail of the accessor with the number `n` after a step. -/
def trailAfter (n : Nat) (s : Session) (t : Trail) : Step → Trail
  | .read name kind =>
    match s.found? name with
    | some (held, e) => if held.serial = n then t.readAs (s.store.view e) e.registry held.accessor kind else t
    | none => t
  | _ => t

/-- The trail after several steps. -/
def trailAfterAll (n : Nat) : Session → Trail → List Step → Trail
  | _, t, [] => t
  | s, t, taken :: rest => trailAfterAll n (s.step taken).2 (trailAfter n s t taken) rest

/-- All accessors remember what is on their trails. -/
structure Trailed (s : Session) (trail : Nat → Trail) : Prop where
  tidy : Tidy s.accessors s.subscriptions s.nextSerial
  explains : ∀ p ∈ s.accessors, (trail p.2.serial).Explains p.2.accessor.memory
  unused : ∀ n, s.nextSerial ≤ n → trail n = .empty

private theorem Trailed.start (customTypes : List CustomType) (files : FileTree) (vars : Entries) :
    (start customTypes files vars).Trailed fun _ => .empty :=
  ⟨(Tracks.start customTypes files vars).tidy, fun _ hp => absurd hp List.not_mem_nil, fun _ _ => rfl⟩

/-! ### Reads -/

private theorem Explains.readAs {t : Trail} {a : Accessor} (h : t.Explains a.memory) (v : View) (r : Registry)
    (kind : ReadKind) : (t.readAs v r a kind).Explains (a.readAs v r kind).memory := by
  cases kind with
  | value | optional => exact h.read v r
  | raw => exact h.readRaw v r
  | default | key | listing | none => exact h

private theorem perform_read (hfound : s.found? name = some (held, e)) (kind : ReadKind) :
    perform s (.read name kind) = stepRead s name held e kind := by
  obtain ⟨hheld, he⟩ := of_found? hfound
  show (withAccessor s name fun held e => stepRead s name held e kind) = _
  unfold withAccessor
  rw [hheld]
  dsimp only
  rw [he]

/-- A read of what is not there fails and leaves the accessors. -/
private theorem perform_read_of_not_found (h : s.found? name = none) (kind : ReadKind) :
    ∃ what, perform s (.read name kind) = fail s what :=
  withAccessor_found_cases (P := fun p => ∃ what, p = fail s what) (fun _ what => ⟨what, rfl⟩)
    fun _ _ hfound => nomatch h.symm.trans hfound

/-- A read puts the accessor that was read in the place of the old one. -/
private theorem mem_accessors_read (htidy : Tidy s.accessors s.subscriptions s.nextSerial)
    (hfound : s.found? name = some (held, e)) {p : String × Held}
    (hp : p ∈ (s.step (.read name kind)).2.accessors) :
    p = (name, { held with accessor := held.accessor.readAs (s.store.view e) e.registry kind }) ∨
      p ∈ s.accessors ∧ p.2.serial ≠ held.serial := by
  have hperform : (s.step (.read name kind)).2.accessors = (stepRead s name held e kind).session.accessors :=
    congrArg (fun p : Stepped => p.session.accessors) (perform_read hfound kind)
  have hmem := mem_of_lookup (of_found? hfound).1
  have hbind {held' : Held} (hp : p ∈ bind name held' s.accessors) :
      p = (name, held') ∨ p ∈ s.accessors ∧ p.2.serial ≠ held.serial := by
    rcases mem_bind_iff.1 hp with rfl | ⟨hp, hname⟩
    · exact .inl rfl
    · exact .inr ⟨hp, htidy.serial_ne hmem hp hname⟩
  rw [hperform] at hp
  cases kind with
  | value | optional | raw => exact hbind hp
  | default | key | listing | none =>
    have hp : p ∈ s.accessors := hp
    by_cases hserial : p.2.serial = held.serial
    · exact .inl (htidy.serial_inj p hp _ hmem hserial)
    · exact .inr ⟨hp, hserial⟩

private theorem Trailed.read (h : s.Trailed trail) (hfound : s.found? name = some (held, e)) (kind : ReadKind) :
    (s.step (.read name kind)).2.Trailed fun n => trailAfter n s (trail n) (.read name kind) := by
  have hhandling := handles_perform s (.read name kind)
  have hheld := mem_of_lookup (of_found? hfound).1
  refine ⟨h.tidy.handling hhandling, fun p hp => ?_, fun n hn => ?_⟩
  · rw [trailAfter, hfound]
    dsimp only
    rcases mem_accessors_read h.tidy hfound hp with rfl | ⟨hp, hserial⟩
    · rw [if_pos rfl]
      exact Explains.readAs (h.explains _ hheld) _ _ kind
    · rw [if_neg (Ne.symm hserial)]
      exact h.explains p hp
  · have hn : s.nextSerial ≤ n := Nat.le_trans hhandling.nextSerial_le hn
    rw [trailAfter, hfound]
    dsimp only
    rw [if_neg (Nat.ne_of_lt (Nat.lt_of_lt_of_le (h.tidy.serial_lt _ hheld) hn))]
    exact h.unused n hn

/-! ### All steps -/

private theorem trailAfter_of_not_read (h : ∀ name kind, taken ≠ .read name kind) (n : Nat) (s : Session) (t : Trail) :
    trailAfter n s t taken = t := by
  unfold trailAfter
  split
  · exact absurd rfl (h _ _)
  · rfl

/-- Steps that do not read leave what accessors remember, and a new accessor remembers nothing. -/
private theorem Handling.memory_of_not_read {accs : List (String × Held)} {subs : List (String × Subscription)}
    {next : Nat} {called : List Event} (hhandling : Handling s taken accs subs next called)
    (htidy : Tidy s.accessors s.subscriptions s.nextSerial) (h : ∀ name kind, taken ≠ .read name kind) :
    ∀ p ∈ accs, p.2.serial = s.nextSerial ∧ p.2.accessor.memory = .fresh ∨
      ∃ q ∈ s.accessors, q.2.serial = p.2.serial ∧ q.2.accessor.memory = p.2.accessor.memory := by
  have hkept : ∀ p ∈ s.accessors,
      ∃ q ∈ s.accessors, q.2.serial = p.2.serial ∧ q.2.accessor.memory = p.2.accessor.memory :=
    fun p hp => ⟨p, hp, rfl, rfl⟩
  have hdropped (subscription : String) : ∀ p ∈ (dropSubscription s subscription).accessors,
      ∃ q ∈ s.accessors, q.2.serial = p.2.serial ∧ q.2.accessor.memory = p.2.accessor.memory := by
    intro p hp
    rw [accessors_dropSubscription] at hp
    obtain ⟨q, hq, rfl⟩ := List.mem_map.1 hp
    exact ⟨q, hq, (Held.serial_without _ _).symm, by rw [Held.accessor_without]⟩
  intro p hp
  cases hhandling with
  | nothing => exact .inr (hkept p hp)
  | built he ha =>
    rcases mem_bind hp with rfl | hp
    · exact .inl ⟨rfl, Accessor.memory_of_build ha⟩
    · exact .inr (hkept p hp)
  | read => exact absurd rfl (h _ _)
  | rawRead => exact absurd rfl (h _ _)
  | @subscribed name subscription held e hfound =>
    have hheld := mem_of_lookup (of_found? hfound).1
    rw [accessors_stepSubscribe htidy hheld] at hp
    rcases mem_bind hp with rfl | hp
    · exact .inr ⟨_, hheld, (Held.serial_without _ _).symm,
        congrArg Accessor.memory (Held.accessor_without _ _).symm⟩
    · exact .inr (hdropped _ p hp)
  | unsubscribed => exact .inr (hdropped _ p hp)
  | dropped => exact .inr (hkept p (List.mem_filter.1 hp).1)

private theorem Trailed.step (h : s.Trailed trail) (taken : Step) :
    (s.step taken).2.Trailed fun n => trailAfter n s (trail n) taken := by
  by_cases hread : ∃ name kind, taken = .read name kind
  · obtain ⟨name, kind, rfl⟩ := hread
    cases hfound : s.found? name with
    | none =>
      obtain ⟨what, hfail⟩ := perform_read_of_not_found hfound kind
      have hsame (n : Nat) : trailAfter n s (trail n) (.read name kind) = trail n := by rw [trailAfter, hfound]
      have haccessors : (s.step (.read name kind)).2 = s.collect :=
        congrArg (fun p : Stepped => p.session.collect) hfail
      rw [haccessors, funext hsame]
      exact ⟨h.tidy, h.explains, h.unused⟩
    | some found => exact h.read hfound kind
  · have hread : ∀ name kind, taken ≠ .read name kind := fun name kind heq => hread ⟨name, kind, heq⟩
    have hhandling := handles_perform s taken
    rw [funext fun n => trailAfter_of_not_read hread n s (trail n)]
    refine ⟨h.tidy.handling hhandling, fun p hp => ?_,
      fun n hn => h.unused n (Nat.le_trans hhandling.nextSerial_le hn)⟩
    rcases hhandling.memory_of_not_read h.tidy hread p hp with ⟨hserial, hmemory⟩ | ⟨q, hq, hserial, hmemory⟩
    · rw [hmemory, h.unused _ (Nat.le_of_eq hserial.symm)]
      exact Trail.explains_fresh
    · rw [← hserial, ← hmemory]
      exact h.explains q hq

private theorem Trailed.after (h : s.Trailed trail) (steps : List Step) :
    (s.after steps).Trailed fun n => trailAfterAll n s (trail n) steps := by
  induction steps generalizing s trail with
  | nil => exact h
  | cons taken rest ih => exact ih (h.step taken)

/-! ### What a reader is told -/

private theorem eq_ok_of_require {α : Type} {key : String} {x : Except ConfigError (Option α)} {a : α}
    (h : View.require key x = .ok a) : x = .ok (some a) := by
  unfold View.require at h
  split at h
  · nomatch h
  · nomatch h
  · obtain rfl := Except.ok.inj h
    rfl

private theorem exists_of_settled {α : Type} {toAnswer : α → Answer} {x : Except ConfigError α} {answer : Answer}
    (h : settled toAnswer x = .ok answer) : ∃ a, x = .ok a ∧ answer = toAnswer a := by
  cases x with
  | error e => nomatch h
  | ok a => exact ⟨a, rfl, (Except.ok.inj h).symm⟩

/-- A reader gets what the accessor gives, with the key that the accessor remembers then. -/
private theorem exists_of_read (hkind : kind = .value ∨ kind = .optional) {answer : Answer}
    (h : (s.step (.read name kind)).1.result = .ok answer) :
    ∃ held e value, s.found? name = some (held, e) ∧
      (held.accessor.optionalValue (s.store.view e) e.registry).outcome = .ok value ∧
      answer = optionalValue value ∧
      (s.step (.read name kind)).1.resolvedKey =
        some (held.accessor.optionalValue (s.store.view e) e.registry).accessor.memory.resolvedKey := by
  cases hfound : s.found? name with
  | none =>
    obtain ⟨what, hfail⟩ := perform_read_of_not_found hfound kind
    have hresult : (s.step (.read name kind)).1.result = .error what := congrArg Stepped.result hfail
    nomatch hresult.symm.trans h
  | some found =>
    obtain ⟨held, e⟩ := found
    have hresult : (stepRead s name held e kind).result = .ok answer :=
      (congrArg Stepped.result (perform_read hfound kind)).symm.trans h
    have hkey : (s.step (.read name kind)).1.resolvedKey = (stepRead s name held e kind).resolvedKey :=
      congrArg Stepped.resolvedKey (perform_read hfound kind)
    rcases hkind with rfl | rfl
    · obtain ⟨a, ha, rfl⟩ := exists_of_settled hresult
      exact ⟨held, e, some a, rfl, eq_ok_of_require ha, rfl, hkey⟩
    · obtain ⟨value, hvalue, rfl⟩ := exists_of_settled hresult
      exact ⟨held, e, value, rfl, hvalue, rfl, hkey⟩

/-- In every session, whatever happened before, a result that a reader gets was worked out from a key by the accessor,
now or in an earlier read.  The key that is reported with it is that of the last read without conversion since then, if
there was one; so it is the key that the result was worked out from unless such a read found another one. -/
theorem reportedKey_after (customTypes : List CustomType) (files : FileTree) (vars : Entries) (before : List Step) :
    let first := start customTypes files vars
    let s := first.after before
    ∀ name kind answer, kind = .value ∨ kind = .optional → (s.step (.read name kind)).1.result = .ok answer →
      ∃ held e value key, s.found? name = some (held, e) ∧
        let trail := trailAfter held.serial s (trailAfterAll held.serial first .empty before) (.read name kind)
        trail.result = some (value, key) ∧ answer = optionalValue value ∧
          (s.step (.read name kind)).1.resolvedKey = some (some (trail.rawKey.getD key)) ∧
          ((s.step (.read name kind)).1.resolvedKey = some (some key) ↔
            trail.rawKey = none ∨ trail.rawKey = some key) := by
  intro first s name kind answer hkind hanswer
  have htrailed := (Trailed.start customTypes files vars).after before
  obtain ⟨held, e, value, hfound, houtcome, hvalue, hkey⟩ := exists_of_read hkind hanswer
  have hexplains := htrailed.explains _ (mem_of_lookup (of_found? hfound).1)
  obtain ⟨key, hresult⟩ := hexplains.exists_key houtcome
  have hreported := (hexplains.read (s.store.view e) e.registry).resolvedKey
  have htrail (t : Trail) : trailAfter held.serial s t (.read name kind) =
      t.read (s.store.view e) e.registry held.accessor := by
    rw [trailAfter, hfound]
    dsimp only
    rw [if_pos rfl]
    rcases hkind with rfl | rfl <;> rfl
  refine ⟨held, e, value, key, hfound, ?_⟩
  dsimp only
  rw [htrail, hkey, hreported, Trail.lastKey, hresult]
  refine ⟨rfl, hvalue, ?_, ?_⟩
  · cases (Trail.read _ _ _ _).rawKey <;> rfl
  · cases (Trail.read _ _ _ _).rawKey <;> simp

/-- A port with a more specific one, which is read and kept as long as can be; then it goes, and nobody is told. -/
def removedPort : List Step :=
  [.source "custom" (.script "custom" 100 (Entries.ofPairs [("port.eu", "1"), ("port", "2")]) ⟨false, none, []⟩),
   .build "engine" ["custom"] false [],
   .accessor "port" "engine" "port"
     [.expands false, .suffix "eu", .lifetime ⟨2 ^ (64 : Nat) - 1, 999999999, by decide, by decide⟩],
   .read "port" .value,
   .remove "custom" "port.eu"]

/-- It is served with the key that it was worked out from. -/
theorem reportedKey_after_removedPort :
    let s := (start [] FileTree.empty Entries.empty).after removedPort
    let told := (s.step (.read "port" .value)).1
    told.result = .ok (.value (.text "1")) ∧ told.resolvedKey = some (some "port.eu") := by
  intro s told
  have hresult : told.result = .ok (.value (.text "1")) := by with_unfolding_all rfl
  refine ⟨hresult, ?_⟩
  obtain ⟨held, e, value, key, hfound, htrail, -, -, hkey⟩ :=
    reportedKey_after [] FileTree.empty Entries.empty removedPort "port" .value _ (.inl rfl) hresult
  have hserial : (s.found? "port").map (fun p => p.1.serial) = some 0 := by decide +kernel
  have hzero : held.serial = 0 := by
    rw [hfound] at hserial
    exact Option.some.inj hserial
  have hknown : trailAfter 0 s (trailAfterAll 0 (start [] FileTree.empty Entries.empty) .empty removedPort)
      (.read "port" .value) = ⟨some (some (.text "1"), "port.eu"), none⟩ := by
    with_unfolding_all rfl
  rw [hzero, hknown] at htrail hkey
  obtain ⟨-, rfl⟩ := Prod.mk.inj (Option.some.inj htrail)
  exact hkey.2 (.inl rfl)

/-- After a read without conversion the same result is served with the key of that read. -/
theorem ne_reportedKey_removedPort :
    let first := start [] FileTree.empty Entries.empty
    let before := removedPort ++ [.read "port" .raw]
    let s := first.after before
    let trail := trailAfter 0 s (trailAfterAll 0 first .empty before) (.read "port" .value)
    let told := (s.step (.read "port" .value)).1
    trail.result = some (some (.text "1"), "port.eu") ∧ told.result = .ok (.value (.text "1")) ∧
      told.resolvedKey = some (some "port") ∧ told.resolvedKey ≠ some (some "port.eu") := by
  refine ⟨?_, ?_, ?_, ?_⟩
  · with_unfolding_all rfl
  · with_unfolding_all rfl
  · decide +kernel
  · decide +kernel

end Session

end LayeredConfig
