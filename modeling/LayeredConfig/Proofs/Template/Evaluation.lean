import LayeredConfig.Proofs.Template.Meaning
import LayeredConfig.Proofs.Template.Settled
import LayeredConfig.Proofs.Template.Termination
import Mathlib.Data.List.TakeWhile

/-!
# Expansion gives the meaning of a template

Expansion sees a text and not its structure.  What ties the two together is the part of the text that lies behind
the place where the work goes on: it is `Inert`, made of plain text and of references that nothing can replace, and
so the search for the next reference runs through it (`found_inert_append`).  The text of a meaning is inert as well
(`Means.inert`), so that a replacement leaves behind what it found.

`Means.carries` follows a template piece by piece for any property that every replacement carries back; it is used for
the value behind a reference (`expandValue_of_means`) and for the text itself (`expand?_render`).
-/

namespace LayeredConfig.Template

/-! ### Balanced texts -/

/-- A text that takes no closing brace from what follows it and leaves none to it. -/
def Balanced (text : List Char) : Prop :=
  ∀ depth more, splitClose depth (text ++ more) = (splitClose depth more).map fun p => (text ++ p.1, p.2)

namespace Balanced

private theorem nil : Balanced [] := by
  intro depth more
  simp

private theorem append {a b : List Char} (ha : Balanced a) (hb : Balanced b) : Balanced (a ++ b) := by
  intro depth more
  rw [List.append_assoc, ha, hb, Option.map_map]
  simp [Function.comp_def]

private theorem singleton {c : Char} (h : c ≠ '$') (h' : c ≠ '}') : Balanced [c] := by
  intro depth more
  exact splitClose_cons (by simp [joins, h]) h'

private theorem plain {chars : List Char} (h : ∀ c ∈ chars, c ≠ '$' ∧ c ≠ '{' ∧ c ≠ '}') : Balanced chars := by
  induction chars with
  | nil => exact nil
  | cons c cs ih =>
    obtain ⟨hc, -, hc'⟩ := h c List.mem_cons_self
    exact append (singleton hc hc') (ih fun d hd => h d (List.mem_cons_of_mem c hd))

private theorem sourceOf {body : List Char} (h : Balanced body) : Balanced (sourceOf body) := by
  intro depth more
  have hclose : splitClose (depth + 1) ('}' :: more) = (splitClose depth more).map fun p => ('}' :: p.1, p.2) := by
    simp [splitClose]
  show splitClose depth ('$' :: '{' :: (body ++ ['}'] ++ more)) = _
  rw [splitClose, List.append_assoc, h, List.singleton_append, hclose, Option.map_map, Option.map_map]
  simp [Function.comp_def, Template.sourceOf]

private theorem name (name : Name) : Balanced name.chars := plain name.plain

private theorem withFallback (name : Name) {t : List Char} (h : Balanced t) : Balanced (name.chars ++ ':' :: t) :=
  (Balanced.name name).append ((singleton (by decide) (by decide)).append h)

private theorem render (t : Pieces) : Balanced t.render := by
  induction t with
  | nil => exact nil
  | literal text rest ih => exact (plain text.plain).append ih
  | reference n rest ih => exact (name n).sourceOf.append ih
  | withFallback n fallback rest ihFallback ihRest => exact (withFallback n ihFallback).sourceOf.append ihRest

end Balanced

/-! ### Finding a reference by what is written -/

/-- Plain text in front of a text only moves the first opening. -/
private theorem splitOpen_plain_append (p : Plain) (more : List Char) :
    splitOpen (p.chars ++ more) = (splitOpen more).map fun q => (p.chars ++ q.1, q.2) := by
  obtain ⟨chars, h⟩ := p
  show splitOpen (chars ++ more) = (splitOpen more).map fun q => (chars ++ q.1, q.2)
  induction chars with
  | nil => simp
  | cons c cs ih =>
    obtain ⟨hc, -, -⟩ := h c List.mem_cons_self
    rw [List.cons_append, splitOpen_cons (by simp [joins, hc]), ih fun d hd => h d (List.mem_cons_of_mem c hd),
      Option.map_map]
    rfl

/-- A balanced body is found as the body of its reference. -/
private theorem Reference.first?_sourceOf (before : Plain) {body more : List Char} (hbody : Balanced body)
    (hname : (Reference.mk before.chars body more).name ≠ "") :
    Reference.first? (before.chars ++ (sourceOf body ++ more)) = some ⟨before.chars, body, more⟩ := by
  refine first?_eq_some_iff.2 ⟨body ++ '}' :: more, ?_, ?_, hname⟩
  · rw [splitOpen_plain_append]
    simp [sourceOf, splitOpen]
  · rw [hbody]
    simp [splitClose]

private theorem Reference.first?_stops (before : Plain) {tail : List Char} (h : Stops tail) :
    Reference.first? (before.chars ++ tail) = none := by
  rw [first?, splitOpen_plain_append]
  cases h with
  | empty => simp [splitOpen]
  | unclosed h => simp [splitOpen, h]
  | unnamed h hname =>
    rcases hname with rfl | hcolon
    · simp [splitOpen, h, Reference.name]
    · obtain ⟨cs, rfl⟩ := List.head?_eq_some_iff.1 hcolon
      simp [splitOpen, h, Reference.name]

section

variable (name : Name) (before text more : List Char)

private theorem Name.string_ne_empty : name.string ≠ "" := by
  intro h
  exact name.ne_nil (by simpa [Name.string] using congrArg String.toList h)

private theorem Name.ne_colon : ∀ c ∈ name.chars, c ≠ ':' := fun _ hc heq => name.no_colon (heq ▸ hc)

private theorem Reference.name_reference : (Reference.mk before name.chars more).name = name.string := by
  rw [Reference.name, List.takeWhile_eq_self_iff.2 (by simpa using name.ne_colon), Name.string]

private theorem Reference.fallback?_reference : (Reference.mk before name.chars more).fallback? = none := by
  rw [Reference.fallback?, List.dropWhile_eq_nil_iff.2 (by simpa using name.ne_colon)]

private theorem Reference.name_withFallback :
    (Reference.mk before (name.chars ++ ':' :: text) more).name = name.string := by
  rw [Reference.name, List.takeWhile_append_of_pos (by simpa using name.ne_colon)]
  simp [Name.string]

private theorem Reference.fallback?_withFallback :
    (Reference.mk before (name.chars ++ ':' :: text) more).fallback? = some text := by
  rw [Reference.fallback?, List.dropWhile_append_of_pos (by simpa using name.ne_colon)]
  simp

end

/-! ### What the search runs through -/

/-- Plain text and references that have neither a value nor a fallback. -/
inductive Inert (values : Values) : List Char → Prop where
  | plain (p : Plain) : Inert values p.chars
  | kept (p : Plain) {name : Name} {text : List Char} (hname : values name.string = none)
      (htext : Inert values text) : Inert values (p.chars ++ (sourceOf name.chars ++ text))

private theorem Values.lookup_eq_none {values : Values} {name : String} (h : values name = none) :
    values.lookup name = none := by
  rw [Values.lookup, h, Option.map_none]

private theorem Values.lookup_eq_some {values : Values} {name : String} {value : Pieces}
    (h : values name = some value) : values.lookup name = some (String.ofList value.render) := by
  rw [Values.lookup, h, Option.map_some]

section

variable {values : Values} {a b : List Char}

private theorem Inert.plain_append (p : Plain) (h : Inert values a) : Inert values (p.chars ++ a) := by
  have append_plain (q : Plain) : ∀ c ∈ p.chars ++ q.chars, c ≠ '$' ∧ c ≠ '{' ∧ c ≠ '}' := by
    intro c hc
    rcases List.mem_append.1 hc with hc | hc
    · exact p.plain c hc
    · exact q.plain c hc
  cases h with
  | plain q => exact .plain ⟨p.chars ++ q.chars, append_plain q⟩
  | kept q hname htext =>
    rw [← List.append_assoc]
    exact .kept ⟨p.chars ++ q.chars, append_plain q⟩ hname htext

private theorem Inert.append (ha : Inert values a) (hb : Inert values b) : Inert values (a ++ b) := by
  induction ha with
  | plain p => exact hb.plain_append p
  | kept p hname _ ih =>
    rw [List.append_assoc, List.append_assoc]
    exact .kept p hname ih

private theorem Inert.nil : Inert values [] := .plain ⟨[], by simp⟩

private theorem Inert.sourceOf {name : Name} (hname : values name.string = none) :
    Inert values (sourceOf name.chars) := by
  have := Inert.kept ⟨[], by simp⟩ hname Inert.nil
  simpa using this

/-- Expanding what a template stands for would change nothing. -/
theorem Means.inert {t : Pieces} {m : Meaning} (h : Means values t m) : Inert values m.text := by
  induction h with
  | nil => exact .nil
  | literal _ ih => exact ih.plain_append _
  | resolved _ _ _ ihValue ihRest => exact ihValue.append ihRest
  | unresolved hname _ ih => exact (Inert.sourceOf hname).append ih
  | overridden _ _ _ ihValue ihRest => exact ihValue.append ihRest
  | fallback _ _ _ ihFallback ihRest => exact ihFallback.append ihRest

/-- A reference without value and fallback is stepped over, with the plain text in front of it. -/
private theorem scan_kept (p : Plain) {name : Name} (hname : values name.string = none) (more : List Char) :
    (scan values.lookup (p.chars ++ (Template.sourceOf name.chars ++ more))).skipped =
        p.chars ++ Template.sourceOf name.chars ++ (scan values.lookup more).skipped ∧
      (scan values.lookup (p.chars ++ (Template.sourceOf name.chars ++ more))).found =
        (scan values.lookup more).found := by
  have href := Reference.name_reference name p.chars more
  have hfirst := @Reference.first?_sourceOf p name.chars more (.name name) (href ▸ name.string_ne_empty)
  rw [scan_of_neither hfirst (href ▸ Values.lookup_eq_none hname) (Reference.fallback?_reference name p.chars more)]
  exact ⟨rfl, rfl⟩

/-- The search runs through inert text up to a reference that can be replaced. -/
theorem found_inert_append (ha : Inert values a) {body more : List Char} (hbody : Balanced body)
    (hname : (Reference.mk [] body more).name ≠ "") {p : Replacement}
    (hp : Replaces values.lookup ⟨[], body, more⟩ p) :
    ∃ before : Plain, (scan values.lookup (a ++ (Template.sourceOf body ++ more))).found =
        some (⟨before.chars, body, more⟩, p) ∧
      (scan values.lookup (a ++ (Template.sourceOf body ++ more))).skipped ++ before.chars = a := by
  induction ha with
  | plain q =>
    have hfirst := @Reference.first?_sourceOf q body more hbody hname
    refine ⟨q, ?_⟩
    cases p with
    | value v => rw [scan_of_value hfirst hp]; exact ⟨rfl, rfl⟩
    | fallback t => rw [scan_of_fallback hfirst hp.1 hp.2]; exact ⟨rfl, rfl⟩
  | kept q hkept _ ih =>
    obtain ⟨before, hfound, hskipped⟩ := ih
    obtain ⟨hskip, hnext⟩ := scan_kept q hkept (_ ++ (Template.sourceOf body ++ more))
    rw [List.append_assoc, List.append_assoc, hskip, hnext]
    exact ⟨before, hfound, by rw [List.append_assoc, hskipped, List.append_assoc]⟩

private theorem found_inert_stops (ha : Inert values a) {tail : List Char} (h : Stops tail) :
    (scan values.lookup (a ++ tail)).found = none := by
  induction ha with
  | plain p => rw [scan_of_none (Reference.first?_stops p h)]
  | kept p hname _ ih =>
    rw [List.append_assoc, List.append_assoc, (scan_kept p hname _).2]
    exact ih

end

/-! ### Following a template -/

/-- A property of a text in the course of its expansion that holds before a replacement if it holds after it.  The
number is what is left for further replacements; the values behind references have `levels` values to the depth limit
and take at most `limit` replacements. -/
structure Carried (values : Values) (levels limit : Nat) (R : Nat → List Char → List Char → Prop) : Prop where
  value {left : Nat} {done text : List Char} {r : Reference} {value : Pieces} {v : Meaning}
    (hfound : (scan values.lookup text).found = some (r, .value (String.ofList value.render)))
    (hvalue : Means values value v) (hchain : v.chain < levels) (hreplaced : v.replaced ≤ limit)
    (hnext : R left (done ++ (scan values.lookup text).skipped) (r.replaceWith v.text)) :
    R (v.replaced + 1 + left) done text
  fallback {left : Nat} {done text t : List Char} {r : Reference}
    (hfound : (scan values.lookup text).found = some (r, .fallback t))
    (hnext : R left (done ++ (scan values.lookup text).skipped) (r.replaceWith t)) :
    R (1 + left) done text

section

variable {values : Values} {levels limit left : Nat} {R : Nat → List Char → List Char → Prop}
  {done a body more : List Char}

/-- A reference to a value, behind inert text. -/
private theorem Carried.ofValue (hR : Carried values levels limit R) (ha : Inert values a) (hbody : Balanced body)
    {name : Name} (hname : (Reference.mk [] body more).name = name.string) {value : Pieces} {v m : Meaning}
    (hv : values name.string = some value) (hvalue : Means values value v)
    (hchain : (Meaning.ofValue v m).chain ≤ levels) (hheaviest : (Meaning.ofValue v m).heaviest ≤ limit)
    (hrest : m.chain ≤ levels → m.heaviest ≤ limit → ∀ done' a', Inert values a' →
      done' ++ a' = done ++ a ++ v.text → R (m.replaced + left) done' (a' ++ more)) :
    R ((Meaning.ofValue v m).replaced + left) done (a ++ (sourceOf body ++ more)) := by
  obtain ⟨hchain, hchain'⟩ := Nat.max_le.1 hchain
  obtain ⟨hheaviest, hheaviest'⟩ := Nat.max_le.1 hheaviest
  have hp : values.lookup (Reference.mk [] body more).name = some (String.ofList value.render) :=
    hname ▸ Values.lookup_eq_some hv
  obtain ⟨before, hfound, hskipped⟩ := found_inert_append ha hbody (hname ▸ name.string_ne_empty)
    (show Replaces values.lookup ⟨[], body, more⟩ (.value _) from hp)
  rw [Meaning.ofValue, Nat.add_assoc]
  apply hR.value hfound hvalue hchain hheaviest
  apply hrest hchain' hheaviest' _ _ (hvalue.inert.plain_append before)
  rw [List.append_assoc, ← List.append_assoc _ before.chars, hskipped, List.append_assoc]

/-- A reference that stands for its fallback, behind inert text. -/
private theorem Carried.ofFallback (hR : Carried values levels limit R) (ha : Inert values a) {name : Name}
    (hv : values name.string = none) {t : List Char} (ht : Balanced t) {f m : Meaning}
    (hchain : (Meaning.ofFallback f m).chain ≤ levels) (hheaviest : (Meaning.ofFallback f m).heaviest ≤ limit)
    (hfallback : f.chain ≤ levels → f.heaviest ≤ limit → m.chain ≤ levels → m.heaviest ≤ limit →
      ∀ done' a', Inert values a' → done' ++ a' = done ++ a →
        R (f.replaced + (m.replaced + left)) done' (a' ++ (t ++ more))) :
    R ((Meaning.ofFallback f m).replaced + left) done (a ++ (sourceOf (name.chars ++ ':' :: t) ++ more)) := by
  obtain ⟨hchain, hchain'⟩ := Nat.max_le.1 hchain
  obtain ⟨hheaviest, hheaviest'⟩ := Nat.max_le.1 hheaviest
  have hname := Reference.name_withFallback name [] t more
  obtain ⟨before, hfound, hskipped⟩ := found_inert_append ha (ht.withFallback name) (hname ▸ name.string_ne_empty)
    (show Replaces values.lookup ⟨[], _, more⟩ (.fallback t) from
      ⟨hname ▸ Values.lookup_eq_none hv, Reference.fallback?_withFallback name [] t more⟩)
  rw [show (Meaning.ofFallback f m).replaced + left = 1 + (f.replaced + (m.replaced + left)) by
    simp only [Meaning.ofFallback]
    omega]
  apply hR.fallback hfound
  rw [Reference.replaceWith, List.append_assoc]
  apply hfallback hchain hheaviest hchain' hheaviest' _ _ (.plain before)
  rw [List.append_assoc, hskipped]

/-- What is carried back by every replacement holds of a template if it holds of the text of its meaning. -/
theorem Means.carries (hR : Carried values levels limit R) {t : Pieces} {m : Meaning} (h : Means values t m)
    (hchain : m.chain ≤ levels) (hheaviest : m.heaviest ≤ limit) (ha : Inert values a)
    (hlast : ∀ done' a', Inert values a' → done' ++ a' = done ++ a ++ m.text → R left done' (a' ++ more)) :
    R (m.replaced + left) done (a ++ (t.render ++ more)) := by
  induction h generalizing left done a more with
  | nil =>
    rw [Meaning.empty, Nat.zero_add]
    exact hlast done a ha (by simp [Meaning.empty])
  | @literal text rest m _ ih =>
    rw [Pieces.render, List.append_assoc, ← List.append_assoc]
    refine ih hchain hheaviest (ha.append (.plain text)) fun done' a' ha' hdone => hlast done' a' ha' ?_
    simpa [Meaning.kept] using hdone
  | @unresolved name rest m hname _ ih =>
    rw [Pieces.render, List.append_assoc, ← List.append_assoc]
    refine ih hchain hheaviest (ha.append (.sourceOf hname)) fun done' a' ha' hdone => hlast done' a' ha' ?_
    simpa [Meaning.kept] using hdone
  | @resolved name value rest v m hname hvalue _ _ ih =>
    rw [Pieces.render, List.append_assoc]
    refine hR.ofValue ha (.name name) (Reference.name_reference name _ _) hname hvalue hchain hheaviest ?_
    intro hchain hheaviest done' a' ha' hdone
    refine ih hchain hheaviest ha' fun done'' a'' ha'' hdone' => hlast done'' a'' ha'' ?_
    simp [hdone', hdone, Meaning.ofValue]
  | @overridden name value fallback rest v m hname hvalue _ _ ih =>
    rw [Pieces.render, List.append_assoc]
    refine hR.ofValue ha (.withFallback name (.render fallback)) (Reference.name_withFallback name _ _ _) hname hvalue
      hchain hheaviest ?_
    intro hchain hheaviest done' a' ha' hdone
    refine ih hchain hheaviest ha' fun done'' a'' ha'' hdone' => hlast done'' a'' ha'' ?_
    simp [hdone', hdone, Meaning.ofValue]
  | @fallback name fallback rest f m hname _ _ ihFallback ihRest =>
    rw [Pieces.render, List.append_assoc]
    refine hR.ofFallback ha hname (.render fallback) hchain hheaviest ?_
    intro hchain hheaviest hchain' hheaviest' d₁ a₁ ha₁ h₁
    -- The fallback is followed where its reference stood, and then what is behind it.
    refine ihFallback hchain hheaviest ha₁ fun d₂ a₂ ha₂ h₂ => ?_
    refine ihRest hchain' hheaviest' ha₂ fun d₃ a₃ ha₃ h₃ => hlast d₃ a₃ ha₃ ?_
    simp [h₃, h₂, h₁, Meaning.ofFallback]

end

/-! ### The value behind a reference -/

/-- A value was expanded to `text` within the limits, with `left` replacements to spare. -/
structure ValueExpansion.Completes {budget : Nat} (e : ValueExpansion budget) (text : List Char) (left : Nat) : Prop where
  text_eq : e.text = text
  truncated_eq : e.truncated = false
  left_eq : e.left = left

/-- A replacement within the limits leaves the outcome to what comes after it. -/
private theorem completes_of_replaced {lookup : String → Option String} {levels budget left spare : Nat}
    {done text new out : List Char} {r : Reference} {p : Replacement}
    (hfound : (scan lookup text).found = some (r, p))
    (hp : (p.expanded lookup levels budget).Completes new (1 + left))
    (hnext : (expandValue lookup (levels + 1) left (done ++ (scan lookup text).skipped) (r.replaceWith new)).Completes
      out spare) :
    (expandValue lookup (levels + 1) budget done text).Completes out spare := by
  have hl : (p.expanded lookup levels budget).left ≠ 0 := by
    rw [hp.left_eq]
    omega
  obtain ⟨htext, htrunc, hleft⟩ :=
    @expandValue_of_more lookup levels budget done text r p hfound hl (not_last_of_found hfound hp.truncated_eq)
  rw [hp.text_eq, hp.left_eq, Nat.add_sub_cancel_left] at htext htrunc hleft
  exact ⟨htext.trans hnext.text_eq, htrunc.trans hnext.truncated_eq, hleft.trans hnext.left_eq⟩

/-- A value with a meaning within the limits is expanded to the text of its meaning. -/
private theorem Means.completes {values : Values} {t : Pieces} {m : Meaning} (h : Means values t m) {levels : Nat}
    (hchain : m.chain < levels) (left : Nat) :
    (expandValue values.lookup levels (m.replaced + left) [] t.render).Completes m.text left := by
  induction levels generalizing t m left with
  | zero => omega
  | succ levels ih =>
    have hR : Carried values levels m.heaviest fun budget done text =>
        (expandValue values.lookup (levels + 1) budget done text).Completes m.text left := by
      constructor
      · intro budget done text r value v hfound hvalue hchain _ hnext
        refine completes_of_replaced hfound ?_ hnext
        rw [Nat.add_assoc, Replacement.expanded, String.toList_ofList]
        exact ih hvalue hchain (1 + budget)
      · intro budget done text t r hfound hnext
        exact completes_of_replaced hfound ⟨rfl, rfl, rfl⟩ hnext
    have hlast : ∀ done' a', Inert values a' → done' ++ a' = [] ++ [] ++ m.text →
        (expandValue values.lookup (levels + 1) left done' (a' ++ [])).Completes m.text left := by
      intro done' a' ha' hdone
      obtain ⟨htext, htrunc, hleft⟩ :=
        @expandValue_of_none values.lookup levels left done' _ (found_inert_stops ha' .empty)
      refine ⟨?_, htrunc, hleft⟩
      rw [htext, List.append_nil]
      exact hdone
    have := h.carries hR (Nat.le_of_lt_succ hchain) (Nat.le_refl _) .nil hlast
    simpa using this

/-! ### The text itself -/

/-- A replacement within the limits leaves the outcome to the text after it. -/
private theorem finish?_of_replaced {lookup : String → Option String} {done text new trace} {r : Reference}
    {p : Replacement} {left : Nat} (hfound : (scan lookup text).found = some (r, p))
    (hp : (p.expanded lookup maxDepth maxSubstitutions).Completes new left) :
    ∃ trace', (Progress.mk done text trace).finish? lookup =
      (Progress.mk (done ++ (scan lookup text).skipped) (r.replaceWith new) trace').finish? lookup := by
  obtain ⟨⟨done', text', trace'⟩, hturn, hdone, htext⟩ :=
    Progress.turn_of_found (p := ⟨done, text, trace⟩) hfound hp.truncated_eq
  dsimp only at hdone htext
  rw [hp.text_eq] at htext
  exact ⟨trace', by rw [Progress.finish?_of_more hturn, hdone, htext]⟩

/-- Expanding a template gives the text of its meaning, up to where the text stops being a template. -/
theorem expand?_render {values : Values} {t : Pieces} {m : Meaning} (h : Means values t m)
    (hchain : m.chain ≤ maxDepth) (hheaviest : m.heaviest ≤ maxSubstitutions) {tail : List Char} (htail : Stops tail) :
    ∃ e, expand? values.lookup (String.ofList (t.render ++ tail)) = some e ∧ e.text = m.text ++ tail ∧
      e.truncated = false := by
  have hR : Carried values maxDepth maxSubstitutions fun _ done text => ∀ trace, ∃ e,
      (Progress.mk done text trace).finish? values.lookup = some e ∧ e.text = m.text ++ tail ∧ e.truncated = false := by
    constructor
    · intro _ done text r value v hfound hvalue hchain hreplaced hnext trace
      have hv := hvalue.completes hchain (maxSubstitutions - v.replaced)
      rw [Nat.add_sub_of_le hreplaced, ← String.toList_ofList (l := value.render)] at hv
      obtain ⟨trace', hfinish⟩ := finish?_of_replaced hfound hv
      rw [hfinish]
      exact hnext trace'
    · intro _ done text t r hfound hnext trace
      obtain ⟨trace', hfinish⟩ := finish?_of_replaced hfound ⟨rfl, rfl, rfl⟩
      rw [hfinish]
      exact hnext trace'
  have hlast : ∀ done' a', Inert values a' → done' ++ a' = [] ++ [] ++ m.text → ∀ trace, ∃ e,
      (Progress.mk done' (a' ++ tail) trace).finish? values.lookup = some e ∧ e.text = m.text ++ tail ∧
        e.truncated = false := by
    intro done' a' ha' hdone trace
    -- All of the template is text now, and nothing in the tail can be replaced.
    obtain ⟨e, hturn, htext, htrunc⟩ :=
      Progress.turn_of_none (p := ⟨done', a' ++ tail, trace⟩) (found_inert_stops ha' htail)
    refine ⟨e, Progress.finish?_of_last hturn, ?_, htrunc⟩
    rw [htext, ← List.append_assoc, hdone]
    rfl
  have hmeans := @Means.carries values _ _ 0 _ [] [] tail hR t m h hchain hheaviest .nil hlast []
  rwa [List.nil_append, ← String.toList_ofList (l := t.render ++ tail)] at hmeans

namespace Jdbc

/-- The name `url`. -/
def url : Name := ⟨⟨"url".toList, by simp⟩, by simp, by simp⟩

/-- The name `host`. -/
def host : Name := ⟨⟨"host".toList, by simp⟩, by simp, by simp⟩

/-- The name `port`. -/
def port : Name := ⟨⟨"port".toList, by simp⟩, by simp, by simp⟩

/-- The address `jdbc://${host}:${port:5432}`, with a host and without a port. -/
def values : Values
  | "url" => some (.literal ⟨"jdbc://".toList, by simp⟩ (.reference host (.literal ⟨[':'], by simp⟩
      (.withFallback port (.literal ⟨"5432".toList, by simp⟩ .nil) .nil))))
  | "host" => some (.literal ⟨"db".toList, by simp⟩ .nil)
  | _ => none

/-- The template `${url}/app`. -/
def template : Pieces := .reference url (.literal ⟨"/app".toList, by simp⟩ .nil)

end Jdbc

/-- The address is put together in front of a reference that is not closed. -/
theorem expand?_render_jdbc :
    ∃ e, expand? Jdbc.values.lookup (String.ofList (Jdbc.template.render ++ "$\x7bbroken".toList)) = some e ∧
      e.text = "jdbc://db:5432/app$\x7bbroken".toList ∧ e.truncated = false := by
  have haddress : Means Jdbc.values Jdbc.template _ :=
    .resolved rfl (.literal (.resolved rfl (.literal .nil) (.literal (.fallback rfl (.literal .nil) .nil))))
      (.literal .nil)
  exact expand?_render haddress (by decide) (by decide) (.unclosed rfl)

end LayeredConfig.Template
