import LayeredConfig.Proofs.Template.References
import LayeredConfig.Proofs.Template.Steps

/-!
# Work behind one reference

Steps and expansion say the same: the steps for a text come to an end exactly if it has an expansion, with the text,
the limits and the events of that expansion (`run_start_iff`).  The value behind a reference is expanded by one call, and
this call returns with what `expandValue` gives (`expands_searching`).  So every call for a value returns, however
its references go round, and the bounds on single steps are bounds on expansion (`expansion_bounded`).
-/

namespace LayeredConfig.Template

namespace Work

variable {lookup : String → Option String} {below : List Frame} {w v u : Work} {trace more : List Event}

/-! ### Runs one after the other -/

private theorem Run.single {events : List Event} (hstep : Step lookup w events v) (hw : below <:+ w.waiting)
    (hv : below <:+ v.waiting) : Run lookup below w events v := by
  have hrun := Run.step hw hstep (.refl hv)
  rwa [List.append_nil] at hrun

private theorem Run.trans (h : Run lookup below w trace v) (h' : Run lookup below v more u) :
    Run lookup below w (trace ++ more) u := by
  induction h with
  | refl _ => exact h'
  | step hw hstep _ ih =>
    rw [List.append_assoc]
    exact .step hw hstep (ih h')

/-- What waits during a run, waits also for fewer. -/
private theorem Run.of_suffix {above : List Frame} (h : Run lookup above w trace v) (hbelow : below <:+ above) :
    Run lookup below w trace v := by
  induction h with
  | refl hw => exact .refl (hbelow.trans hw)
  | step hw hstep _ ih => exact .step (hbelow.trans hw) hstep ih

/-! ### A search -/

variable {waiting : List Frame} {nested budget levels : Nat} {done text : List Char} {r : Reference}
  {p : Replacement}

/-- How the work goes on with a reference that was found. -/
def pursuing (waiting : List Frame) (nested : Nat) (done : List Char) (r : Reference) : Replacement → Work
  | .value value => ⟨.entering value.toList, ⟨done, r⟩ :: waiting, nested, false⟩
  | .fallback text => ⟨.replacing done r text, waiting, nested, false⟩

private theorem suffix_pursuing (p : Replacement) : waiting <:+ (pursuing waiting nested done r p).waiting := by
  cases p with
  | value value => exact List.suffix_cons _ _
  | fallback text => exact List.suffix_refl _

/-- A search looks up the names of `scan`, and goes on with what it finds. -/
private theorem run_scan (lookup : String → Option String) (waiting : List Frame) (nested : Nat)
    (done text : List Char) :
    Run lookup waiting ⟨.searching done text, waiting, nested, false⟩
      ((scan lookup text).asked.map (Event.asked waiting.length))
      (match (scan lookup text).found with
      | none => ⟨.returning (done ++ text), waiting, nested, false⟩
      | some (r, p) => pursuing waiting nested (done ++ (scan lookup text).skipped) r p) := by
  have hself : waiting <:+ waiting := List.suffix_refl _
  fun_induction scan lookup text generalizing done with
  | case1 text hf => exact .single (.stop (.inr hf)) hself hself
  | case2 text r hf value hv =>
    rw [List.append_nil]
    exact .single (.call hf hv) hself (suffix_pursuing (.value value))
  | case3 text r hf fallback ht hv =>
    rw [List.append_nil]
    exact .single (.fallBack hf hv ht) hself (suffix_pursuing (.fallback fallback))
  | case4 text r hf ht hv s ih =>
    have hrest := Run.step hself (.stepOver hf hv ht) (ih (done ++ (r.before ++ r.source)))
    have htext : done ++ (r.before ++ r.source) ++ r.rest = done ++ text := by
      rw [Reference.first?_eq_some hf, Reference.replaceWith, List.append_assoc]
    rw [htext] at hrest
    simp only [List.append_assoc] at hrest ⊢
    exact hrest

private theorem run_scan_of_none (h : (scan lookup text).found = none) :
    Run lookup waiting ⟨.searching done text, waiting, nested, false⟩
      ((scan lookup text).asked.map (Event.asked waiting.length))
      ⟨.returning (done ++ text), waiting, nested, false⟩ := by
  have hrun := run_scan lookup waiting nested done text
  rwa [h] at hrun

private theorem run_scan_of_some (waiting : List Frame) (nested : Nat) (done : List Char)
    (h : (scan lookup text).found = some (r, p)) :
    Run lookup waiting ⟨.searching done text, waiting, nested, false⟩
      ((scan lookup text).asked.map (Event.asked waiting.length))
      (pursuing waiting nested (done ++ (scan lookup text).skipped) r p) := by
  have hrun := run_scan lookup waiting nested done text
  rwa [h] at hrun

/-! ### A call for a value -/

/-- The call on top returns with an expanded value. -/
def Expands (lookup : String → Option String) (w : Work) (e : ValueExpansion budget) : Prop :=
  ∃ nested, maxSubstitutions - nested = e.left ∧
    Run lookup w.waiting w e.trace ⟨.returning e.text, w.waiting, nested, e.truncated⟩

/-- A call at the limit returns at once, and any other one searches its text. -/
private theorem expands_entering_of (hdepth : waiting.length + levels = maxDepth + 1)
    (hbudget : maxSubstitutions - nested = budget)
    (hsearch : ∀ k, levels = k + 1 →
      Expands lookup ⟨.searching [] text, waiting, nested, false⟩ (expandValue lookup (k + 1) budget [] text)) :
    Expands lookup ⟨.entering text, waiting, nested, false⟩ (expandValue lookup levels budget [] text) := by
  have hself : waiting <:+ waiting := List.suffix_refl _
  cases levels with
  | zero =>
    rw [expandValue]
    exact ⟨nested, hbudget, .single (.tooDeep (by omega)) hself hself⟩
  | succ k =>
    obtain ⟨nested', hleft, hrun⟩ := hsearch k rfl
    exact ⟨nested', hleft, .step hself (.enter (by omega)) hrun⟩

/-- The search for a reference, and the call for its value, if it has one. -/
private theorem run_replacement (waiting : List Frame) (done : List Char) (h : (scan lookup text).found = some (r, p))
    (hbudget : maxSubstitutions - nested = budget)
    (hcall : ∀ value done, Expands lookup ⟨.entering value, ⟨done, r⟩ :: waiting, nested, false⟩
      (expandValue lookup levels budget [] value)) :
    ∃ nested', maxSubstitutions - nested' = (p.expanded lookup levels budget).left ∧
      Run lookup waiting ⟨.searching done text, waiting, nested, false⟩
        ((scan lookup text).asked.map (Event.asked waiting.length) ++ (p.expanded lookup levels budget).trace)
        ⟨.replacing (done ++ (scan lookup text).skipped) r (p.expanded lookup levels budget).text, waiting, nested',
          (p.expanded lookup levels budget).truncated⟩ := by
  have hsearch := run_scan_of_some waiting nested done h
  cases p with
  | value value =>
    obtain ⟨nested', hleft, hrun⟩ := hcall value.toList (done ++ (scan lookup text).skipped)
    have hback : Run lookup waiting _ _ _ :=
      (hrun.of_suffix (List.suffix_cons _ _)).trans (.single .handBack (List.suffix_cons _ _) (List.suffix_refl _))
    rw [List.append_nil] at hback
    exact ⟨nested', hleft, hsearch.trans hback⟩
  | fallback fallback =>
    refine ⟨nested, hbudget, ?_⟩
    rw [Replacement.expanded, List.append_nil]
    exact hsearch

/-- A replacement that changes nothing ends the call, and so does a limit that was reached. -/
private theorem run_resuming {replacement : List Char} {truncated : Bool}
    (h : truncated || r.replaceWith replacement == r.replaceWith r.source) :
    Run lookup waiting ⟨.resuming done r replacement, waiting, nested, truncated⟩ []
      ⟨.returning (done ++ r.replaceWith replacement), waiting, nested, truncated⟩ := by
  have hself : waiting <:+ waiting := List.suffix_refl _
  unfold Focus.resuming
  split
  · exact .refl hself
  · rename_i hne
    have htruncated : truncated = true := by simpa [hne] using h
    exact .single (.stop (.inl htruncated)) hself hself

private theorem resuming_of_not (done : List Char) {replacement : List Char} {truncated : Bool}
    (h : ¬ (truncated || r.replaceWith replacement == r.replaceWith r.source)) :
    Focus.resuming done r replacement = .searching done (r.replaceWith replacement) ∧ truncated = false := by
  simp only [Bool.or_eq_true, beq_iff_eq, not_or, Bool.not_eq_true] at h
  exact ⟨if_neg h.2, h.1⟩

/-- The call for a value returns with the expanded value. -/
theorem expands_searching (lookup : String → Option String) (levels budget : Nat) (done text : List Char)
    (frame : Frame) {waiting : List Frame} {nested : Nat} (hdepth : waiting.length + 1 + levels = maxDepth)
    (hbudget : maxSubstitutions - nested = budget) :
    Expands lookup ⟨.searching done text, frame :: waiting, nested, false⟩
      (expandValue lookup (levels + 1) budget done text) := by
  have hself : (frame :: waiting) <:+ (frame :: waiting) := List.suffix_refl _
  have hlevel : maxDepth - levels = (frame :: waiting).length := by
    rw [List.length_cons]
    omega
  rw [expandValue_succ]
  cases hfound : (scan lookup text).found with
  | none =>
    refine ⟨nested, hbudget, ?_⟩
    rw [hlevel]
    exact run_scan_of_none hfound
  | some found =>
    obtain ⟨r, p⟩ := found
    obtain ⟨htext, -, -⟩ := replaces_of_found hfound
    have hcall (value done : List Char) :
        Expands lookup ⟨.entering value, ⟨done, r⟩ :: frame :: waiting, nested, false⟩
          (expandValue lookup levels budget [] value) := by
      refine expands_entering_of ?_ hbudget fun k hk => ?_
      · rw [List.length_cons, List.length_cons]
        omega
      · refine expands_searching lookup k budget [] value _ ?_ hbudget
        rw [List.length_cons]
        omega
    obtain ⟨nested', hleft, hrun⟩ := run_replacement (frame :: waiting) done hfound hbudget hcall
    dsimp only
    generalize p.expanded lookup levels budget = inner at hleft hrun
    unfold proceed
    dsimp only
    rw [hlevel]
    split
    · -- No replacement is left for the reference that was found.
      rename_i hspent
      refine ⟨nested' + 1, ?_, ?_⟩
      · show maxSubstitutions - (nested' + 1) = 0
        omega
      · have hstep := hrun.trans (.single (.spent (by omega)) hself hself)
        rw [List.append_nil, List.append_assoc done, ← htext] at hstep
        exact hstep
    · rename_i hunspent
      have hreplace := hrun.trans (.single (.replaceNested (by omega)) hself hself)
      split
      · rename_i hlast
        refine ⟨nested' + 1, ?_, ?_⟩
        · show maxSubstitutions - (nested' + 1) = inner.left - 1
          omega
        · have hstep := hreplace.trans (run_resuming hlast)
          rw [List.append_nil] at hstep
          exact hstep
      · rename_i hmore
        obtain ⟨hfocus, htruncated⟩ := resuming_of_not (done ++ (scan lookup text).skipped) hmore
        have hless : inner.left - 1 < budget := by
          have := inner.left_le
          omega
        have hbudget' : maxSubstitutions - (nested' + 1) = inner.left - 1 := by omega
        obtain ⟨nested'', hleft', hrest⟩ := expands_searching lookup levels (inner.left - 1)
          (done ++ (scan lookup text).skipped) (r.replaceWith inner.text) frame hdepth hbudget'
        refine ⟨nested'', hleft', ?_⟩
        rw [hfocus, htruncated] at hreplace
        exact hreplace.trans hrest
termination_by (budget, levels)

private theorem expands_entering (lookup : String → Option String) (frame : Frame)
    (hdepth : waiting.length + levels = maxDepth) (hbudget : maxSubstitutions - nested = budget) (text : List Char) :
    Expands lookup ⟨.entering text, frame :: waiting, nested, false⟩ (expandValue lookup levels budget [] text) := by
  refine expands_entering_of ?_ hbudget fun k hk => ?_
  · rw [List.length_cons]
    omega
  · exact expands_searching lookup k budget [] text frame (by omega) hbudget

/-- Every call for a value returns, and until then the calls below it wait. -/
private theorem exists_returning {frame : Frame} (hdepth : waiting.length ≤ maxDepth) (text : List Char)
    (truncated : Bool) :
    ∃ trace v result, Run lookup (frame :: waiting) ⟨.entering text, frame :: waiting, nested, truncated⟩ trace v ∧
      v.waiting = frame :: waiting ∧ v.focus = .returning result := by
  have hself : (frame :: waiting) <:+ (frame :: waiting) := List.suffix_refl _
  cases truncated with
  | false =>
    obtain ⟨nested', -, hrun⟩ := expands_entering lookup frame (Nat.add_sub_of_le hdepth)
      (rfl : maxSubstitutions - nested = _) text
    exact ⟨_, _, _, hrun, rfl, rfl⟩
  | true =>
    -- A limit was reached before, so the call does not even look at its text.
    by_cases hlimit : maxDepth < (frame :: waiting).length
    · exact ⟨_, _, _, .single (.tooDeep hlimit) hself hself, rfl, rfl⟩
    · exact ⟨_, _, _, .step hself (.enter (Nat.le_of_not_lt hlimit)) (.single (.stop (.inl rfl)) hself hself), rfl, rfl⟩

/-! ### The whole text -/

/-- The work on a text in the course of its expansion. -/
def ofProgress (p : Progress) : Work := ⟨.searching p.done p.text, [], 0, false⟩

/-- The call for the text itself has returned with the result of its expansion. -/
def Ends (lookup : String → Option String) (w : Work) (trace : List Event) (e : Expansion) : Prop :=
  ∃ events nested, e.trace = trace ++ events ∧ Run lookup [] w events ⟨.returning e.text, [], nested, e.truncated⟩

/-- A turn takes the steps up to the next replacement in the text, or up to the end. -/
private theorem run_turn (lookup : String → Option String) (p : Progress) :
    match p.turn lookup with
    | .last e => Ends lookup (ofProgress p) p.trace e
    | .more q => ∃ events, events ≠ [] ∧ q.trace = p.trace ++ events ∧
        Run lookup [] (ofProgress p) events (ofProgress q) := by
  unfold Progress.turn
  dsimp only
  cases hfound : (scan lookup p.text).found with
  | none => exact ⟨_, 0, rfl, run_scan_of_none hfound⟩
  | some found =>
    obtain ⟨r, replacement⟩ := found
    obtain ⟨nested, -, hrun⟩ := run_replacement [] p.done hfound (Nat.sub_zero maxSubstitutions)
      fun value done => expands_entering lookup ⟨done, r⟩ (Nat.zero_add maxDepth) rfl value
    dsimp only
    generalize replacement.expanded lookup maxDepth maxSubstitutions = inner at hrun
    have hreplace := hrun.trans (.single .replace List.nil_suffix List.nil_suffix)
    rw [List.length_nil] at hreplace
    by_cases hlast : inner.truncated || r.replaceWith inner.text == r.replaceWith r.source
    · rw [if_pos hlast]
      have hend := hreplace.trans (run_resuming hlast)
      rw [List.append_nil] at hend
      exact ⟨_, 0, by simp only [List.append_assoc], hend⟩
    · rw [if_neg hlast]
      obtain ⟨hfocus, htruncated⟩ := resuming_of_not (p.done ++ (scan lookup p.text).skipped) hlast
      rw [hfocus, htruncated] at hreplace
      exact ⟨_, by simp, by simp only [List.append_assoc], hreplace⟩

private theorem ends_of_finish? {p : Progress} {e : Expansion} (h : p.finish? lookup = some e) :
    Ends lookup (ofProgress p) p.trace e := by
  obtain ⟨n, hn⟩ := Progress.isSome_finish?_iff.1 (Option.isSome_of_eq_some h)
  induction n generalizing p with
  | zero => nomatch hn
  | succ n ih =>
    have hturn := run_turn lookup p
    cases ht : p.turn lookup with
    | last e' =>
      rw [ht] at hturn
      rw [Progress.finish?_of_last ht] at h
      exact Option.some.inj h ▸ hturn
    | more q =>
      rw [ht] at hturn
      rw [Progress.finish?_of_more ht] at h
      rw [Progress.after?_succ_of_more ht] at hn
      obtain ⟨events, -, htrace, hrun⟩ := hturn
      obtain ⟨rest, nested, hrest, hend⟩ := ih h hn
      exact ⟨events ++ rest, nested, by rw [hrest, htrace, List.append_assoc], hrun.trans hend⟩

/-! ### Back from the steps -/

/-- What happens next is determined. -/
theorem Step.deterministic {events events' : List Event} {v' : Work} (h : Step lookup w events v)
    (h' : Step lookup w events' v') : events = events' ∧ v = v' := by
  -- Only rules for the same focus compete: a limit, what the search finds or its value decides between them.
  cases h <;> cases h' <;> simp_all <;> omega

/-- The call for the text itself has returned. -/
theorem not_step_returned {text : List Char} {truncated : Bool} {events : List Event} :
    ¬ Step lookup ⟨.returning text, [], nested, truncated⟩ events v := nofun

/-- A run that ends is the only one that does. -/
private theorem Run.eq_of_ends {u' : Work} (h : Run lookup below w trace u) (hu : ∀ events v, ¬ Step lookup u events v)
    (h' : Run lookup below w more u') (hu' : ∀ events v, ¬ Step lookup u' events v) : trace = more ∧ u = u' := by
  induction h generalizing more with
  | refl _ =>
    cases h' with
    | refl _ => exact ⟨rfl, rfl⟩
    | step _ hstep _ => exact absurd hstep (hu _ _)
  | step _ hstep _ ih =>
    cases h' with
    | refl _ => exact absurd hstep (hu' _ _)
    | step _ hstep' hrun' =>
      obtain ⟨rfl, rfl⟩ := hstep.deterministic hstep'
      obtain ⟨rfl, rfl⟩ := ih hu hrun'
      exact ⟨rfl, rfl⟩

/-- One state comes right after another. -/
def Follows (lookup : String → Option String) (v w : Work) : Prop := ∃ events, Step lookup w events v

/-- Steps that come to an end go on from no state for ever. -/
private theorem Run.acc (h : Run lookup below w trace u) (hu : ∀ events v, ¬ Step lookup u events v) :
    Acc (Follows lookup) w := by
  induction h with
  | refl _ => exact ⟨_, fun v ⟨events, hstep⟩ => absurd hstep (hu events v)⟩
  | step _ hstep _ ih =>
    refine ⟨_, fun v ⟨events, hstep'⟩ => ?_⟩
    obtain ⟨-, rfl⟩ := hstep.deterministic hstep'
    exact ih hu

private theorem Run.reflTransGen (h : Run lookup below w trace v) : Relation.ReflTransGen (Follows lookup) v w := by
  induction h with
  | refl _ => exact .refl
  | step _ hstep _ ih => exact ih.tail ⟨_, hstep⟩

private theorem Run.transGen (h : Run lookup below w trace v) (hne : trace ≠ []) :
    Relation.TransGen (Follows lookup) v w := by
  cases h with
  | refl _ => exact absurd rfl hne
  | step _ hstep hrun => exact .tail' hrun.reflTransGen ⟨_, hstep⟩

/-- If the steps for a text come to an end, so do its replacements. -/
private theorem isSome_finish?_of_acc {p : Progress} (h : Acc (Follows lookup) (ofProgress p)) :
    (p.finish? lookup).isSome := by
  have htrans := h.transGen
  clear h
  generalize hw : ofProgress p = w at htrans
  induction htrans generalizing p with
  | intro w _ ih =>
    subst hw
    have hturn := run_turn lookup p
    cases ht : p.turn lookup with
    | last e => rw [Progress.finish?_of_last ht]; rfl
    | more q =>
      rw [ht] at hturn
      obtain ⟨events, hne, -, hrun⟩ := hturn
      rw [Progress.finish?_of_more ht]
      exact ih _ (hrun.transGen hne) rfl

/-- The steps for a text come to an end exactly if it has an expansion, and what they come to is this expansion. -/
theorem run_start_iff {raw : String} {e : Expansion} :
    expand? lookup raw = some e ↔
      ∃ nested, Run lookup [] (start raw) e.trace ⟨.returning e.text, [], nested, e.truncated⟩ := by
  have henter : Step lookup (start raw) [] (ofProgress (.start raw)) := .enter (Nat.zero_le _)
  have hrun {e : Expansion} (h : expand? lookup raw = some e) :
      ∃ nested, Run lookup [] (start raw) e.trace ⟨.returning e.text, [], nested, e.truncated⟩ := by
    obtain ⟨events, nested, htrace, hrun⟩ := ends_of_finish? h
    rw [htrace]
    exact ⟨nested, .step List.nil_suffix henter hrun⟩
  constructor
  · exact hrun
  · rintro ⟨nested, h⟩
    have hacc : Acc (Follows lookup) (ofProgress (.start raw)) := (h.acc fun _ _ => not_step_returned).inv ⟨_, henter⟩
    obtain ⟨e', he'⟩ := Option.isSome_iff_exists.1 (isSome_finish?_of_acc hacc)
    obtain ⟨nested', h'⟩ := hrun he'
    obtain ⟨htrace, hend⟩ := h.eq_of_ends (fun _ _ => not_step_returned) h' fun _ _ => not_step_returned
    obtain ⟨hfocus, -, -, htruncated⟩ := Work.mk.inj hend
    have heq : e = e' := by
      obtain ⟨text, truncated, trace⟩ := e
      rw [Expansion.mk.injEq]
      exact ⟨Focus.returning.inj hfocus, htruncated, htrace⟩
    rw [heq]
    exact he'

/-- The work behind one reference is bounded, whatever values names have and however they refer to each other.  Every
call for a value returns; no call is deeper than one below the limit; up to the next replacement in the text itself
there are at most as many inside values as the limit allows; and once a limit was reached, nothing is looked up until
the expansion is at its end.  This holds of all that can happen on the way, also if the text has no expansion. -/
theorem expansion_bounded (lookup : String → Option String) (raw : String) :
    (∀ e, expand? lookup raw = some e ↔
        ∃ nested, Run lookup [] (start raw) e.trace ⟨.returning e.text, [], nested, e.truncated⟩) ∧
      ∀ trace w, Run lookup [] (start raw) trace w →
        (∀ text, w.focus = .entering text → 1 ≤ w.depth →
            ∃ more v result, Run lookup w.waiting w more v ∧ v.waiting = w.waiting ∧ v.focus = .returning result) ∧
          w.depth ≤ maxDepth + 1 ∧
          (∀ more v, Run lookup [] w more v → .substituted 0 ∉ more →
            more.countP Event.isNested ≤ maxSubstitutions) ∧
          (w.truncated = true → ∀ more v, Run lookup [] w more v → ∀ depth name, .asked depth name ∉ more) := by
  refine ⟨fun e => run_start_iff, fun trace w hrun => ?_⟩
  have hdepth : w.depth ≤ maxDepth + 1 := hrun.depth_le (Nat.zero_le _ : (start raw).IsShallow)
  refine ⟨fun text hfocus hinside => ?_, hdepth, fun more v hmore hnone => ?_, fun h more v hmore => hmore.not_asked h⟩
  · obtain ⟨focus, waiting, nested, truncated⟩ := w
    obtain rfl : focus = .entering text := hfocus
    cases waiting with
    | nil => nomatch hinside
    | cons frame waiting => exact exists_returning (Nat.le_of_succ_le_succ hdepth) text truncated
  · exact Nat.le_trans (hmore.countP_le hnone) (Nat.sub_le _ _)

end Work

end LayeredConfig.Template
