import LayeredConfig.Proofs.Template.Scan

/-!
# Expansion step by step

An expansion is work on a stack of calls.  The call on top searches its text for the next reference; the value behind
a reference is expanded by a call of its own, and the calls below wait for it.  All of them share one count of the
replacements inside values and one mark that a limit was reached.  Nothing here presumes that the work comes to an end:
a step tests the limits and does one thing.

Three bounds hold of every run, however long: on the depth of the calls (`Run.depth_le`), on the replacements inside
values up to the next one in the text itself (`Run.countP_le`), and on lookups, of which there are none once a limit was
reached (`Run.not_asked`).  Each follows from what a single step keeps.
-/

namespace LayeredConfig.Template

/-- A call that waits for the value behind a reference. -/
structure Frame where
  done : List Char
  reference : Reference

/-- What the call on top of the stack is about to do. -/
inductive Focus where
  | entering (text : List Char)
  | searching (done text : List Char)
  | replacing (done : List Char) (reference : Reference) (replacement : List Char)
  | returning (text : List Char)

/-- How a call goes on with a replacement in its place.  One that changes nothing is its last one. -/
def Focus.resuming (done : List Char) (r : Reference) (replacement : List Char) : Focus :=
  if r.replaceWith replacement = r.replaceWith r.source then .returning (done ++ r.replaceWith replacement)
  else .searching done (r.replaceWith replacement)

/-- Whether an event is a replacement inside a value. -/
def Event.isNested : Event → Bool
  | substituted (_ + 1) => true
  | _ => false

/-- The state of an expansion. -/
structure Work where
  focus : Focus
  /-- The calls that wait, the innermost first. -/
  waiting : List Frame
  /-- The replacements inside values since the last one in the text itself. -/
  nested : Nat
  /-- Whether a limit was reached. -/
  truncated : Bool

namespace Work

/-- How many values lie between the text and the call on top. -/
def depth (w : Work) : Nat := w.waiting.length

/-- The expansion of `raw` before its first step. -/
def start (raw : String) : Work := ⟨.entering raw.toList, [], 0, false⟩

/-- One step, with what happens in it. -/
inductive Step (lookup : String → Option String) : Work → List Event → Work → Prop where
  | tooDeep {text waiting nested truncated} (h : maxDepth < waiting.length) :
      Step lookup ⟨.entering text, waiting, nested, truncated⟩ [] ⟨.returning text, waiting, nested, true⟩
  | enter {text waiting nested truncated} (h : waiting.length ≤ maxDepth) :
      Step lookup ⟨.entering text, waiting, nested, truncated⟩ [] ⟨.searching [] text, waiting, nested, truncated⟩
  | stop {done text waiting nested truncated} (h : truncated = true ∨ Reference.first? text = none) :
      Step lookup ⟨.searching done text, waiting, nested, truncated⟩ []
        ⟨.returning (done ++ text), waiting, nested, truncated⟩
  | call {done text waiting nested r value} (h : Reference.first? text = some r) (hv : lookup r.name = some value) :
      Step lookup ⟨.searching done text, waiting, nested, false⟩ [.asked waiting.length r.name]
        ⟨.entering value.toList, ⟨done, r⟩ :: waiting, nested, false⟩
  | fallBack {done text waiting nested r fallback} (h : Reference.first? text = some r) (hv : lookup r.name = none)
      (ht : r.fallback? = some fallback) :
      Step lookup ⟨.searching done text, waiting, nested, false⟩ [.asked waiting.length r.name]
        ⟨.replacing done r fallback, waiting, nested, false⟩
  | stepOver {done text waiting nested r} (h : Reference.first? text = some r) (hv : lookup r.name = none)
      (ht : r.fallback? = none) :
      Step lookup ⟨.searching done text, waiting, nested, false⟩ [.asked waiting.length r.name]
        ⟨.searching (done ++ (r.before ++ r.source)) r.rest, waiting, nested, false⟩
  | spent {done r replacement frame waiting nested truncated} (h : maxSubstitutions ≤ nested) :
      Step lookup ⟨.replacing done r replacement, frame :: waiting, nested, truncated⟩ []
        ⟨.returning (done ++ r.replaceWith r.source), frame :: waiting, nested + 1, true⟩
  | replaceNested {done r replacement frame waiting nested truncated} (h : nested < maxSubstitutions) :
      Step lookup ⟨.replacing done r replacement, frame :: waiting, nested, truncated⟩
        [.substituted (waiting.length + 1)]
        ⟨.resuming done r replacement, frame :: waiting, nested + 1, truncated⟩
  | replace {done r replacement nested truncated} :
      Step lookup ⟨.replacing done r replacement, [], nested, truncated⟩ [.substituted 0]
        ⟨.resuming done r replacement, [], 0, truncated⟩
  | handBack {text frame waiting nested truncated} :
      Step lookup ⟨.returning text, frame :: waiting, nested, truncated⟩ []
        ⟨.replacing frame.done frame.reference text, waiting, nested, truncated⟩

/-- A run of steps in which the calls `below` go on waiting, with what happens in it. -/
inductive Run (lookup : String → Option String) (below : List Frame) : Work → List Event → Work → Prop where
  | refl {w : Work} (hw : below <:+ w.waiting) : Run lookup below w [] w
  | step {w v u : Work} {events trace : List Event} (hw : below <:+ w.waiting) (hstep : Step lookup w events v)
      (hrun : Run lookup below v trace u) : Run lookup below w (events ++ trace) u

variable {lookup : String → Option String} {below : List Frame} {w v u : Work} {events trace more : List Event}

/-! ### The depth of the calls -/

/-- A call at the greatest depth does nothing but return its text. -/
def IsShallow (w : Work) : Prop :=
  match w.focus with
  | .entering _ | .returning _ => w.depth ≤ maxDepth + 1
  | .searching .. | .replacing .. => w.depth ≤ maxDepth

theorem IsShallow.depth_le (h : w.IsShallow) : w.depth ≤ maxDepth + 1 := by
  unfold IsShallow at h
  split at h
  · exact h
  · exact h
  · exact Nat.le_succ_of_le h
  · exact Nat.le_succ_of_le h

private theorem isShallow_resuming {done : List Char} {r : Reference} {replacement : List Char} {waiting : List Frame}
    {nested : Nat} {truncated : Bool} (h : waiting.length ≤ maxDepth) :
    IsShallow ⟨.resuming done r replacement, waiting, nested, truncated⟩ := by
  unfold Focus.resuming
  split
  · exact Nat.le_succ_of_le h
  · exact h

private theorem IsShallow.step (h : w.IsShallow) (hstep : Step lookup w events v) : v.IsShallow := by
  cases hstep with
  | tooDeep _ => exact h
  | enter hdepth => exact hdepth
  | stop _ => exact Nat.le_succ_of_le h
  | call _ _ => exact Nat.succ_le_succ h
  | fallBack _ _ _ => exact h
  | stepOver _ _ _ => exact h
  | spent _ => exact Nat.le_succ_of_le h
  | replaceNested _ => exact isShallow_resuming h
  | replace => exact isShallow_resuming (Nat.zero_le _)
  | handBack => exact Nat.le_of_succ_le_succ h

/-- No call is deeper than one below the limit, where it returns at once. -/
theorem Run.depth_le (hrun : Run lookup below w trace v) (h : w.IsShallow) : v.depth ≤ maxDepth + 1 := by
  induction hrun with
  | refl _ => exact h.depth_le
  | step _ hstep _ ih => exact ih (h.step hstep)

/-! ### The replacements inside values -/

/-- A replacement inside a value uses up one of those that are left. -/
private theorem Step.countP_add_le (hstep : Step lookup w events v) (h : .substituted 0 ∉ events) :
    events.countP Event.isNested + (maxSubstitutions - v.nested) ≤ maxSubstitutions - w.nested := by
  cases hstep with
  | spent hspent =>
    rw [List.countP_nil, Nat.zero_add]
    exact Nat.sub_le_sub_left (Nat.le_succ _) _
  | @replaceNested _ _ _ _ waiting nested _ hleft =>
    show 1 + (maxSubstitutions - (nested + 1)) ≤ maxSubstitutions - nested
    omega
  | replace => exact absurd List.mem_cons_self h
  | tooDeep _ | enter _ | stop _ | call _ _ | fallBack _ _ _ | stepOver _ _ _ | handBack => simp [Event.isNested]

/-- Up to the next replacement in the text itself, there are at most so many inside values as are left. -/
theorem Run.countP_le (hrun : Run lookup below w trace v) (h : .substituted 0 ∉ trace) :
    trace.countP Event.isNested ≤ maxSubstitutions - w.nested := by
  induction hrun with
  | refl _ => exact Nat.zero_le _
  | step _ hstep _ ih =>
    rw [List.mem_append, not_or] at h
    have hfirst := hstep.countP_add_le h.1
    have hrest := ih h.2
    rw [List.countP_append]
    omega

/-! ### What follows a limit -/

/-- A limit that was reached stays so, and nothing is looked up. -/
private theorem Step.of_truncated (hstep : Step lookup w events v) (h : w.truncated = true) :
    v.truncated = true ∧ ∀ depth name, .asked depth name ∉ events := by
  cases hstep with
  | tooDeep _ | spent _ => exact ⟨rfl, nofun⟩
  | enter _ | stop _ | handBack => exact ⟨h, nofun⟩
  | replaceNested _ | replace => exact ⟨h, by simp⟩
  | call _ _ | fallBack _ _ _ | stepOver _ _ _ => nomatch h

/-- Once a limit was reached, nothing is looked up any more. -/
theorem Run.not_asked (hrun : Run lookup below w trace v) (h : w.truncated = true) (depth : Nat) (name : String) :
    .asked depth name ∉ trace := by
  induction hrun with
  | refl _ => exact List.not_mem_nil
  | step _ hstep _ ih =>
    obtain ⟨htruncated, hasked⟩ := hstep.of_truncated h
    rw [List.mem_append, not_or]
    exact ⟨hasked depth name, ih htruncated⟩

end Work

end LayeredConfig.Template
