import LayeredConfig.Proofs.Template.Closing
import LayeredConfig.Proofs.Template.Limits

/-!
# Expansion by places in the bytes

The steps of an expansion where every call keeps its value as one text and finds its way by places in the bytes: where
it goes on searching, and where a reference opens and closes.  A text that is cut inside a character or behind its end
has no part there, so such a step would not exist (`next?`).  What is looked at stays the same text as in the steps by
characters (`next?_encodeWork`), so every cut of every step is in range (`expansion_in_range`).
-/

namespace LayeredConfig.Template

namespace Bytewise

open Text (bytes byteSize slice? IsBoundary)

/-- A reference in a value, and the place from which the value is searched. -/
structure Found where
  value : String
  start : Nat
  opening : Nat
  closing : Nat

/-- What the call on top of the stack is about to do. -/
inductive Focus where
  | entering (raw : String)
  | searching (value : String) (start : Nat)
  | replacing (found : Found) (replacement : String)
  | returning (value : String)

/-- The state of an expansion. -/
structure State where
  focus : Focus
  /-- The references whose values are awaited, the innermost first. -/
  waiting : List Found
  /-- The replacements inside values since the last one in the text itself. -/
  nested : Nat
  /-- Whether a limit was reached. -/
  truncated : Bool

/-- What comes after a state. -/
inductive Next where
  | ended
  | more (events : List Event) (s : State)

/-- What a reference starts with. -/
def openingMark : String := "$\x7b"

/-- The state of an expansion before its first step. -/
def start (raw : String) : State := ⟨.entering raw, [], 0, false⟩

/-- The name and the fallback in the body of a reference. -/
def splitBody? (body : String) : Option (String × Option String) :=
  match Text.find? ":" body with
  | none => some (body, none)
  | some separator => do
    let name ← slice? body 0 separator
    let fallback ← slice? body (separator + 1) body.utf8ByteSize
    some (name, some fallback)

/-- Where the reference opened at a place is closed, with its name and its fallback, unless it has no name. -/
def referenceAt? (value : String) (opening : Nat) : Option (Option (Nat × String × Option String)) :=
  match closingBrace? value opening with
  | none => some none
  | some closing => do
    let body ← slice? value (opening + 2) closing
    let (name, fallback?) ← splitBody? body
    some (if name = "" then none else some (closing, name, fallback?))

/-- The value with another text in place of the reference. -/
def Found.replaceWith? (found : Found) (replacement : String) : Option String := do
  let before ← slice? found.value 0 found.opening
  let rest ← slice? found.value (found.closing + 1) found.value.utf8ByteSize
  some (before ++ replacement ++ rest)

namespace State

/-- The call on top returns. -/
def returning (s : State) (value : String) : Next := .more [] { s with focus := .returning value }

/-- What is done with a reference that was found. -/
def pursue (lookup : String → Option String) (s : State) (found : Found) (name : String) (fallback? : Option String) :
    Next :=
  let asked := [Event.asked s.waiting.length name]
  match lookup name, fallback? with
  | some value, _ => .more asked { s with focus := .entering value, waiting := found :: s.waiting }
  | none, some fallback => .more asked { s with focus := .replacing found fallback }
  | none, none => .more asked { s with focus := .searching found.value (found.closing + 1) }

/-- A search for the next reference. -/
def search? (lookup : String → Option String) (s : State) (value : String) (start : Nat) : Option Next := do
  -- A search that does not start between characters counts as a slip, although it would only find nothing.
  let tail ← slice? value start value.utf8ByteSize
  match Text.find? openingMark tail with
  | none => some (s.returning value)
  | some place =>
    if s.truncated then some (s.returning value)
    else
      match ← referenceAt? value (start + place) with
      | none => some (s.returning value)
      | some (closing, name, fallback?) =>
        some (s.pursue lookup ⟨value, start, start + place, closing⟩ name fallback?)

/-- A replacement, and how the call goes on with it.  One that changes nothing is its last one. -/
def replace? (s : State) (found : Found) (replacement : String) : Option Next := do
  let next ← found.replaceWith? replacement
  let focus := if next = found.value then .returning next else .searching next found.start
  some (.more [.substituted s.waiting.length] { s with focus := focus })

end State

/-- One step; nothing if a text is cut where it cannot be cut. -/
def next? (lookup : String → Option String) (s : State) : Option Next :=
  match s.focus, s.waiting with
  | .entering raw, _ =>
    if maxDepth < s.waiting.length then some ({ s with truncated := true }.returning raw)
    else some (.more [] { s with focus := .searching raw 0 })
  | .searching value start, _ => s.search? lookup value start
  | .replacing found replacement, [] => { s with nested := 0 }.replace? found replacement
  | .replacing found replacement, _ :: _ =>
    if maxSubstitutions < s.nested + 1 then
      some ({ s with nested := s.nested + 1, truncated := true }.returning found.value)
    else { s with nested := s.nested + 1 }.replace? found replacement
  | .returning _, [] => some .ended
  | .returning value, found :: waiting => some (.more [] { s with focus := .replacing found value, waiting := waiting })

/-- A run of steps, with what happens in it. -/
inductive Run (lookup : String → Option String) : State → List Event → State → Prop where
  | refl (s : State) : Run lookup s [] s
  | step {s t u : State} {events trace : List Event} (hnext : next? lookup s = some (.more events t))
      (hrun : Run lookup t trace u) : Run lookup s (events ++ trace) u

/-! ### What is found in a text -/

private theorem find?_opening (text : List Char) :
    Text.find? openingMark (String.ofList text) = (splitOpen text).map fun p => byteSize p.1 := by
  have hstep (c : Char) (cs : List Char) :
      Text.find? openingMark (String.ofList (c :: cs)) = if ['$', '{'] <+: c :: cs then some 0 else
        (Text.find? openingMark (String.ofList cs)).map (c.utf8Size + ·) :=
    Text.find?_ofList_cons (List.cons_ne_nil _ _) (by simp) c cs
  fun_induction splitOpen text with
  | case1 => exact Text.find?_ofList_nil (List.cons_ne_nil _ _)
  | case2 cs => exact (hstep '$' ('{' :: cs)).trans (if_pos (List.prefix_append ['$', '{'] cs))
  | case3 c cs hne ih =>
    rw [hstep, if_neg (not_prefix_of_not_opens hne), ih, Option.map_map, Option.map_map]
    congr 1
    funext p
    exact (Text.byteSize_cons c p.1).symm

private theorem find?_colon (body : List Char) :
    Text.find? ":" (String.ofList body) =
      if body.dropWhile (· ≠ ':') = [] then none else some (byteSize (body.takeWhile (· ≠ ':'))) := by
  have hstep (c : Char) (cs : List Char) :
      Text.find? ":" (String.ofList (c :: cs)) = if [':'] <+: c :: cs then some 0 else
        (Text.find? ":" (String.ofList cs)).map (c.utf8Size + ·) :=
    Text.find?_ofList_cons (List.cons_ne_nil _ _) (by simp) c cs
  induction body with
  | nil => exact Text.find?_ofList_nil (List.cons_ne_nil _ _)
  | cons c cs ih =>
    rw [hstep]
    by_cases hc : c = ':'
    · subst hc
      simp
    · have hprefix : ¬ [':'] <+: c :: cs := fun h => hc (List.cons_prefix_cons.1 h).1.symm
      have hkept : decide (c ≠ ':') = true := decide_eq_true hc
      have hdrop : (c :: cs).dropWhile (· ≠ ':') = cs.dropWhile (· ≠ ':') := List.dropWhile_cons_of_pos hkept
      have htake : (c :: cs).takeWhile (· ≠ ':') = c :: cs.takeWhile (· ≠ ':') := List.takeWhile_cons_of_pos hkept
      rw [if_neg hprefix, ih, hdrop, htake, Text.byteSize_cons]
      split <;> rfl

private theorem splitBody?_body (r : Reference) :
    splitBody? (String.ofList r.body) = some (r.name, r.fallback?.map String.ofList) := by
  have hbody : r.body.takeWhile (· ≠ ':') ++ r.body.dropWhile (· ≠ ':') = r.body := List.takeWhile_append_dropWhile
  rw [splitBody?, find?_colon, Reference.name, Reference.fallback?]
  cases hdrop : r.body.dropWhile (· ≠ ':') with
  | nil =>
    rw [hdrop, List.append_nil] at hbody
    rw [if_pos rfl, hbody]
    rfl
  | cons c fallback =>
    have hstop := List.head?_dropWhile_not (· ≠ ':') r.body
    rw [hdrop] at hbody hstop
    obtain rfl : c = ':' := by simpa using hstop
    generalize r.body.takeWhile (· ≠ ':') = name at hbody
    rw [if_neg (List.cons_ne_nil _ _), ← hbody]
    have hfallback : slice? (String.ofList (name ++ ':' :: fallback)) (byteSize name + 1)
        (String.ofList (name ++ ':' :: fallback)).utf8ByteSize = some (String.ofList fallback) := by
      have hafter := Text.slice?_after (name ++ [':']) fallback
      rwa [Text.byteSize_append, List.append_assoc] at hafter
    dsimp only
    rw [Text.slice?_before, Option.bind_eq_bind, Option.bind_some, hfallback]
    rfl

private theorem referenceAt?_ofList (done : List Char) {text before after : List Char}
    (h : splitOpen text = some (before, after)) :
    referenceAt? (String.ofList (done ++ text)) (byteSize done + byteSize before) =
      some ((Reference.first? text).map fun r =>
        (byteSize done + byteSize r.before + 2 + byteSize r.body, r.name, r.fallback?.map String.ofList)) := by
  have hclosing := closingBrace?_ofList (done ++ before) after
  rw [List.append_assoc, ← splitOpen_eq_some h, Text.byteSize_append] at hclosing
  rw [referenceAt?, hclosing, Reference.first?, h]
  dsimp only [Option.bind_some]
  cases hclose : splitClose 0 after with
  | none => rfl
  | some closed =>
    obtain ⟨body, rest⟩ := closed
    have hbody : slice? (String.ofList (done ++ text)) (byteSize done + byteSize before + 2)
        (byteSize done + byteSize before + 2 + byteSize body) = some (String.ofList body) := by
      have hslice := Text.slice?_ofList (done ++ before ++ ['$', '{']) body ('}' :: rest)
      rw [List.append_assoc, ← splitClose_eq_some hclose, List.append_assoc, List.append_assoc, Text.byteSize_append,
        Text.byteSize_append] at hslice
      rwa [splitOpen_eq_some h]
    dsimp only [Option.map_some, Option.bind_some]
    rw [hbody, Option.bind_eq_bind, Option.bind_some, splitBody?_body ⟨before, body, rest⟩,
      Option.bind_eq_bind, Option.bind_some]
    by_cases hname : (Reference.mk before body rest).name = ""
    · rw [if_pos hname, if_pos hname, Option.map_none]
    · rw [if_neg hname, if_neg hname, Option.map_some]

/-! ### The same steps -/

/-- A reference by its places. -/
def place (done : List Char) (r : Reference) : Found :=
  ⟨String.ofList (done ++ r.replaceWith r.source), byteSize done, byteSize done + byteSize r.before,
    byteSize done + byteSize r.before + 2 + byteSize r.body⟩

def encodeFocus : Template.Focus → Focus
  | .entering text => .entering (String.ofList text)
  | .searching done text => .searching (String.ofList (done ++ text)) (byteSize done)
  | .replacing done r replacement => .replacing (place done r) (String.ofList replacement)
  | .returning text => .returning (String.ofList text)

/-- A state of the steps by characters as one of the steps by places. -/
def encodeWork (w : Work) : State :=
  ⟨encodeFocus w.focus, w.waiting.map fun frame => place frame.done frame.reference, w.nested, w.truncated⟩

variable {lookup : String → Option String} {w v : Work} {events trace : List Event} {s : State}

private theorem byteSize_source (r : Reference) : byteSize r.source = 2 + byteSize r.body + 1 := by
  show byteSize (['$', '{'] ++ r.body ++ ['}']) = _
  rw [Text.byteSize_append, Text.byteSize_append]
  rfl

private theorem replaceWith?_place (done : List Char) (r : Reference) (replacement : List Char) :
    (place done r).replaceWith? (String.ofList replacement) =
      some (String.ofList (done ++ r.replaceWith replacement)) := by
  have hbefore := Text.slice?_before (done ++ r.before) (r.source ++ r.rest)
  have hrest := Text.slice?_after (done ++ r.before ++ r.source) r.rest
  have htext : done ++ r.before ++ (r.source ++ r.rest) = done ++ r.replaceWith r.source := by
    simp only [Reference.replaceWith, List.append_assoc]
  rw [htext, Text.byteSize_append] at hbefore
  rw [List.append_assoc, htext, Text.byteSize_append, Text.byteSize_append, byteSize_source, ← Nat.add_assoc,
    ← Nat.add_assoc] at hrest
  unfold Found.replaceWith? place
  dsimp only
  rw [hbefore, Option.bind_eq_bind, Option.bind_some, hrest, Option.bind_some]
  simp only [Reference.replaceWith, String.ofList_append, String.append_assoc]

private theorem replace?_encodeWork (done : List Char) (r : Reference) (replacement : List Char) (waiting : List Found)
    (nested : Nat) (truncated : Bool) (focus : Focus) :
    State.replace? ⟨focus, waiting, nested, truncated⟩ (place done r) (String.ofList replacement) =
      some (.more [.substituted waiting.length]
        ⟨encodeFocus (.resuming done r replacement), waiting, nested, truncated⟩) := by
  have hsame : String.ofList (done ++ r.replaceWith replacement) = (place done r).value ↔
      r.replaceWith replacement = r.replaceWith r.source := by
    rw [place, String.ofList_inj, List.append_right_inj]
  rw [State.replace?, replaceWith?_place, Option.bind_eq_bind, Option.bind_some, Focus.resuming]
  by_cases h : r.replaceWith replacement = r.replaceWith r.source
  · rw [if_pos h, if_pos (hsame.2 h)]
    rfl
  · rw [if_neg h, if_neg (mt hsame.1 h)]
    rfl

section

variable {done text : List Char}

/-- A search that finds no reference, or comes after a limit, is the last one. -/
private theorem search?_of_stop (h : s.truncated = true ∨ Reference.first? text = none) :
    s.search? lookup (String.ofList (done ++ text)) (byteSize done) =
      some (s.returning (String.ofList (done ++ text))) := by
  rw [State.search?, Text.slice?_after, Option.bind_eq_bind, Option.bind_some, find?_opening]
  cases ho : splitOpen text with
  | none => rfl
  | some opened =>
    dsimp only [Option.map_some]
    by_cases htruncated : s.truncated = true
    · rw [if_pos htruncated]
    · rw [if_neg htruncated, referenceAt?_ofList done ho, h.resolve_left htruncated]
      rfl

private theorem search?_of_first? {r : Reference} (htruncated : s.truncated = false)
    (h : Reference.first? text = some r) :
    s.search? lookup (String.ofList (done ++ text)) (byteSize done) =
      some (s.pursue lookup (place done r) r.name (r.fallback?.map String.ofList)) := by
  obtain ⟨after, ho, -⟩ := Reference.first?_eq_some_iff.1 h
  rw [State.search?, Text.slice?_after, Option.bind_eq_bind, Option.bind_some, find?_opening, ho]
  dsimp only [Option.map_some]
  rw [htruncated, if_neg Bool.false_ne_true, referenceAt?_ofList done ho, h, place, ← Reference.first?_eq_some h]
  rfl

variable {waiting : List Frame} {nested : Nat}

private theorem pursue_encodeWork {r : Reference} (h : Reference.first? text = some r) :
    ∃ events v, Work.Step lookup ⟨.searching done text, waiting, nested, false⟩ events v ∧
      (encodeWork ⟨.searching done text, waiting, nested, false⟩).pursue lookup (place done r) r.name
        (r.fallback?.map String.ofList) = .more events (encodeWork v) := by
  cases hv : lookup r.name with
  | some value => exact ⟨_, _, .call h hv, by simp [State.pursue, hv, encodeWork, encodeFocus]⟩
  | none =>
    cases ht : r.fallback? with
    | some fallback => exact ⟨_, _, .fallBack h hv ht, by simp [State.pursue, hv, encodeWork, encodeFocus]⟩
    | none =>
      refine ⟨_, _, .stepOver h hv ht, ?_⟩
      have hvalue : (place done r).value = String.ofList (done ++ (r.before ++ r.source) ++ r.rest) := by
        rw [place, Reference.replaceWith, List.append_assoc done]
      have hplace : (place done r).closing + 1 = byteSize (done ++ (r.before ++ r.source)) := by
        show byteSize done + byteSize r.before + 2 + byteSize r.body + 1 = _
        rw [Text.byteSize_append, Text.byteSize_append, byteSize_source]
        omega
      simp only [State.pursue, hv, hvalue, hplace, encodeWork, encodeFocus, List.length_map, Option.map_none]

private theorem next?_searching (lookup : String → Option String) (done text : List Char) (waiting : List Frame)
    (nested : Nat) (truncated : Bool) :
    ∃ events v, Work.Step lookup ⟨.searching done text, waiting, nested, truncated⟩ events v ∧
      next? lookup (encodeWork ⟨.searching done text, waiting, nested, truncated⟩) =
        some (.more events (encodeWork v)) := by
  by_cases hstop : truncated = true ∨ Reference.first? text = none
  · exact ⟨_, _, .stop hstop, search?_of_stop hstop⟩
  · rw [not_or, Bool.not_eq_true] at hstop
    obtain ⟨rfl, hfirst⟩ := hstop
    obtain ⟨r, hr⟩ := Option.ne_none_iff_exists'.1 hfirst
    obtain ⟨events, v, hstep, hpursue⟩ := pursue_encodeWork hr
    exact ⟨events, v, hstep, (search?_of_first? rfl hr).trans (congrArg some hpursue)⟩

end

/-- A state by places goes on as the state by characters does, and no text is cut where it cannot be cut. -/
theorem next?_encodeWork (lookup : String → Option String) (w : Work) :
    (∃ events v, Work.Step lookup w events v ∧ next? lookup (encodeWork w) = some (.more events (encodeWork v))) ∨
      (∀ events v, ¬ Work.Step lookup w events v) ∧ next? lookup (encodeWork w) = some .ended := by
  obtain ⟨focus, waiting, nested, truncated⟩ := w
  -- What the call on top does, and then the limit that it tests, decide which step is taken on both sides.
  cases focus with
  | entering text =>
    left
    by_cases hdepth : maxDepth < waiting.length
    · exact ⟨_, _, .tooDeep hdepth, by simp [next?, encodeWork, encodeFocus, hdepth, State.returning]⟩
    · exact ⟨_, _, .enter (Nat.not_lt.1 hdepth), by simp [next?, encodeWork, encodeFocus, hdepth]⟩
  | searching done text => exact .inl (next?_searching lookup done text waiting nested truncated)
  | replacing done r replacement =>
    left
    cases waiting with
    | nil => exact ⟨_, _, .replace, replace?_encodeWork done r replacement [] 0 truncated _⟩
    | cons frame waiting =>
      by_cases hspent : maxSubstitutions < nested + 1
      · refine ⟨_, _, .spent (Nat.lt_succ_iff.1 hspent), ?_⟩
        simp [next?, encodeWork, encodeFocus, hspent, State.returning, place]
      · refine ⟨_, _, .replaceNested (Nat.not_le.1 fun h => hspent (Nat.lt_succ_iff.2 h)), ?_⟩
        simp [next?, encodeWork, encodeFocus, hspent, replace?_encodeWork]
  | returning text =>
    cases waiting with
    | nil => exact .inr ⟨fun _ _ => Work.not_step_returned, rfl⟩
    | cons frame waiting => exact .inl ⟨_, _, .handBack, rfl⟩

private theorem next?_of_step (h : Work.Step lookup w events v) :
    next? lookup (encodeWork w) = some (.more events (encodeWork v)) := by
  rcases next?_encodeWork lookup w with ⟨events', v', hstep, hnext⟩ | ⟨hnot, -⟩
  · obtain ⟨rfl, rfl⟩ := h.deterministic hstep
    exact hnext
  · exact absurd h (hnot events v)

/-! ### The same runs -/

private theorem run_encodeWork (h : Work.Run lookup [] w trace v) : Run lookup (encodeWork w) trace (encodeWork v) := by
  induction h with
  | refl _ => exact .refl _
  | step _ hstep _ ih => exact .step (next?_of_step hstep) ih

/-- What is reached by places is a state of the steps by characters. -/
private theorem Run.exists_work (h : Run lookup (encodeWork w) trace s) :
    ∃ v, s = encodeWork v ∧ Work.Run lookup [] w trace v := by
  generalize hw : encodeWork w = s₀ at h
  -- Each state of the run is a state by characters in turn, so there is nothing to know about it beforehand.
  induction h generalizing w with
  | refl _ => exact ⟨w, hw.symm, .refl List.nil_suffix⟩
  | step hnext _ ih =>
    subst hw
    rcases next?_encodeWork lookup w with ⟨events', v, hstep, hnext'⟩ | ⟨-, hended⟩
    · obtain ⟨rfl, rfl⟩ := Next.more.inj (Option.some.inj (hnext'.symm.trans hnext))
      obtain ⟨u, hu, hrun⟩ := ih rfl
      exact ⟨u, hu, .step List.nil_suffix hstep hrun⟩
    · nomatch hended.symm.trans hnext

private theorem eq_of_encodeWork_eq_returning {text : List Char} {nested : Nat} {truncated : Bool}
    (h : encodeWork w = ⟨.returning (String.ofList text), [], nested, truncated⟩) :
    w = ⟨.returning text, [], nested, truncated⟩ := by
  obtain ⟨focus, waiting, nested', truncated'⟩ := w
  obtain ⟨hfocus, hwaiting, rfl, rfl⟩ := State.mk.inj h
  obtain rfl := List.map_eq_nil_iff.1 hwaiting
  cases focus with
  | returning text' =>
    obtain rfl := String.ofList_injective (Focus.returning.inj hfocus)
    rfl
  | entering _ | searching _ _ | replacing _ _ _ => nomatch hfocus

private theorem encodeWork_start (raw : String) : encodeWork (.start raw) = start raw := by
  simp [encodeWork, encodeFocus, Work.start, start]

/-- Every step by places can be taken. -/
private theorem isSome_next? {raw : String} (h : Run lookup (start raw) trace s) : (next? lookup s).isSome := by
  rw [← encodeWork_start] at h
  obtain ⟨w, rfl, -⟩ := h.exists_work
  rcases next?_encodeWork lookup w with ⟨_, _, -, hnext⟩ | ⟨-, hended⟩
  · rw [hnext]
    rfl
  · rw [hended]
    rfl

/-- The steps by places come to the expansion of a text. -/
private theorem run_start_iff {raw : String} {e : Expansion} :
    expand? lookup raw = some e ↔
      ∃ nested, Run lookup (start raw) e.trace ⟨.returning (String.ofList e.text), [], nested, e.truncated⟩ := by
  rw [Work.run_start_iff, ← encodeWork_start]
  constructor
  · rintro ⟨nested, hrun⟩
    exact ⟨nested, run_encodeWork hrun⟩
  · rintro ⟨nested, hrun⟩
    obtain ⟨v, hv, hrun⟩ := hrun.exists_work
    obtain rfl := eq_of_encodeWork_eq_returning hv.symm
    exact ⟨nested, hrun⟩

/-- References are closed and cut by bytes as they are by characters.  Wherever a reference opens in a text, the search
for its end finds the first brace that makes one more of the closing braces behind the opening than of the openings
there, or nothing if there is none; it is the brace that is found character by character, and the text can be cut in
front of it and behind it.  In every state that an expansion comes to, all texts can be cut where the next step cuts
them; and the steps come to an end exactly with the expansion of the text. -/
theorem expansion_in_range (lookup : String → Option String) (raw value : String) :
    (∀ opening, OpensAt (bytes value) opening →
        (∀ i, closingBrace? value opening = some i ↔ IsLeast {i | ClosesAt (bytes value) 1 (opening + 2) i} i) ∧
          (closingBrace? value opening = none ↔ ∀ i, ¬ ClosesAt (bytes value) 1 (opening + 2) i) ∧
          (∃ before after, value = String.ofList (before ++ '$' :: '{' :: after) ∧ byteSize before = opening ∧
            closingBrace? value opening = (splitClose 0 after).map fun p => opening + 2 + byteSize p.1) ∧
          ∀ i, closingBrace? value opening = some i → IsBoundary value i ∧ IsBoundary value (i + 1)) ∧
      (∀ trace s, Run lookup (start raw) trace s → (next? lookup s).isSome) ∧
      ∀ e, expand? lookup raw = some e ↔
        ∃ nested, Run lookup (start raw) e.trace ⟨.returning (String.ofList e.text), [], nested, e.truncated⟩ := by
  refine ⟨fun opening ho => ?_, fun trace s hrun => isSome_next? hrun, fun e => run_start_iff⟩
  have hfirst : IsFirst (ClosesAt (bytes value) 1 (opening + 2)) (closingBrace? value opening) :=
    isFirst_closingFrom Nat.one_pos
  refine ⟨fun i => hfirst.eq_some_iff, hfirst.eq_none_iff, ?_, fun i h => isBoundary_of_closingBrace? ho h⟩
  rw [Text.bytes_eq] at ho
  obtain ⟨before, after, hvalue, rfl⟩ := exists_of_opensAt ho
  obtain rfl : value = String.ofList (before ++ '$' :: '{' :: after) := by rw [← hvalue, String.ofList_toList]
  exact ⟨before, after, rfl, rfl, closingBrace?_ofList before after⟩

/-- A reference between and around letters of two bytes. -/
def accented : String := "é$\x7bключ:$\x7bb\x7d\x7dö"

theorem expansion_in_range_accented :
    OpensAt (bytes accented) 2 ∧ closingBrace? accented 2 = some 17 ∧
      (IsBoundary accented 17 ∧ IsBoundary accented 18) ∧ (next? (fun _ => none) (start accented)).isSome := by
  have hopens : OpensAt (bytes accented) 2 := by decide +kernel
  have hcloses : closingBrace? accented 2 = some 17 := by decide +kernel
  obtain ⟨hclosing, hnext, -⟩ := expansion_in_range (fun _ => none) accented accented
  exact ⟨hopens, hcloses, (hclosing 2 hopens).2.2.2 17 hcloses, hnext [] _ (.refl _)⟩

end Bytewise

end LayeredConfig.Template
