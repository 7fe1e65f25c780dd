import LayeredConfig.TypeName

/-!
# Short names of written types

The name of a type is written from an expression: a path of identifiers, which may be applied to further types.  The
short form of a written type is what the same expression gives with every path cut to its last segment
(`short_render`).

A scan of the name knows nothing of this tree.  It has one open segment at a time, and whatever may stand behind a type
closes that segment and leaves the scan as it was at the start (`shortenAfter_of_ends`).  So a type is shortened alike
wherever it stands (`shortenAfter_render`), and the tree can be followed argument by argument.
-/

namespace LayeredConfig.TypeName

/-- A segment of a path. -/
structure Identifier where
  chars : List Char
  ne_nil : chars ≠ []
  nameChars : ∀ c ∈ chars, isNameChar c = true

/-- The identifier as it is written. -/
def Identifier.string (i : Identifier) : String := String.ofList i.chars

/-- A type by its path, which ends in `name`, and the types that it is applied to, if any. -/
inductive TypeExpr where
  | mk (modules : List Identifier) (name : Identifier) (arguments : List TypeExpr)

/-- The segments of a path as they are written. -/
def path (segments : List Identifier) : String := "::".intercalate (segments.map Identifier.string)

namespace TypeExpr

/-- The type as it is written. -/
def render : TypeExpr → String
  | mk modules name arguments =>
    if arguments.isEmpty then path (modules ++ [name])
    else path (modules ++ [name]) ++ "<" ++ ", ".intercalate (arguments.map render) ++ ">"

/-- The type with every path cut to its last segment. -/
def bare : TypeExpr → TypeExpr
  | mk _ name arguments => mk [] name (arguments.map bare)

end TypeExpr

variable {segment rest cs : List Char} {c : Char}

/-! ### Open segments -/

/-- What may stand behind a type: nothing, or a character that closes the segment before it. -/
def Ends (rest : List Char) : Prop := ∀ c ∈ rest.head?, c ≠ ':' ∧ isNameChar c = false

private theorem ends_nil : Ends [] := nofun

private theorem ends_cons (hcolon : c ≠ ':') (hname : isNameChar c = false) (cs : List Char) : Ends (c :: cs) := by
  intro d hd
  obtain rfl := Option.some.inj hd
  exact ⟨hcolon, hname⟩

private theorem shortenAfter_cons (hc : c ≠ ':') (segment cs : List Char) :
    shortenAfter segment (c :: cs) =
      if isNameChar c then shortenAfter (c :: segment) cs else segment.reverse ++ c :: shortenAfter [] cs :=
  shortenAfter.eq_3 segment c cs fun _ hcolon => absurd hcolon hc

/-- A closed segment stands in front of what is made of the rest. -/
theorem shortenAfter_of_ends (h : Ends rest) (segment : List Char) :
    shortenAfter segment rest = segment.reverse ++ shortenAfter [] rest := by
  cases rest with
  | nil => simp [shortenAfter]
  | cons c cs =>
    obtain ⟨hcolon, hname⟩ := h c rfl
    have hclosed : ¬ isNameChar c = true := by simp [hname]
    rw [shortenAfter_cons hcolon, if_neg hclosed, shortenAfter_cons hcolon, if_neg hclosed]
    rfl

/-- Between types a character stands for itself. -/
private theorem shortenAfter_nil_cons (hcolon : c ≠ ':') (hname : isNameChar c = false) (cs : List Char) :
    shortenAfter [] (c :: cs) = c :: shortenAfter [] cs := by
  rw [shortenAfter_cons hcolon, if_neg (by simp [hname])]
  rfl

/-! ### Paths -/

/-- An identifier goes into the open segment. -/
private theorem shortenAfter_nameChars (h : ∀ c ∈ cs, isNameChar c = true) (segment rest : List Char) :
    shortenAfter segment (cs ++ rest) = shortenAfter (cs.reverse ++ segment) rest := by
  induction cs generalizing segment with
  | nil => rfl
  | cons c cs ih =>
    obtain ⟨hc, hcs⟩ := List.forall_mem_cons.1 h
    have hcolon : c ≠ ':' := by
      rintro rfl
      exact absurd hc (by decide)
    rw [List.cons_append, shortenAfter_cons hcolon, if_pos hc, ih hcs, List.reverse_cons, List.append_assoc,
      List.singleton_append]

private theorem toList_path_cons_cons (first second : Identifier) (segments : List Identifier) :
    (path (first :: second :: segments)).toList =
      first.chars ++ ':' :: ':' :: (path (second :: segments)).toList := by
  rw [path, List.map_cons, List.map_cons, String.intercalate_cons_cons, String.toList_append, String.toList_append,
    Identifier.string, String.toList_ofList, List.append_assoc]
  rfl

private theorem toList_path_singleton (i : Identifier) : (path [i]).toList = i.chars := String.toList_ofList

/-- Of a path the last segment is left. -/
private theorem shortenAfter_path (modules : List Identifier) (name : Identifier) (h : Ends rest) :
    shortenAfter [] ((path (modules ++ [name])).toList ++ rest) = name.chars ++ shortenAfter [] rest := by
  induction modules with
  | nil =>
    rw [List.nil_append, toList_path_singleton, shortenAfter_nameChars name.nameChars, shortenAfter_of_ends h,
      List.append_nil, List.reverse_reverse]
  | cons first modules ih =>
    obtain ⟨second, segments, hsegments⟩ : ∃ second segments, modules ++ [name] = second :: segments :=
      List.exists_cons_of_ne_nil (by simp)
    rw [hsegments] at ih
    rw [List.cons_append, hsegments, toList_path_cons_cons, List.append_assoc, List.cons_append, List.cons_append,
      shortenAfter_nameChars first.nameChars, shortenAfter, ih]

/-! ### Whole types -/

/-- A type that is shortened alike whatever stands behind it. -/
def ShortensAlike (e : TypeExpr) : Prop :=
  ∀ rest, Ends rest → shortenAfter [] (e.render.toList ++ rest) = e.bare.render.toList ++ shortenAfter [] rest

private theorem toList_separated_cons_cons (first second : String) (others : List String) (rest : List Char) :
    (", ".intercalate (first :: second :: others)).toList ++ rest =
      first.toList ++ ',' :: ' ' :: ((", ".intercalate (second :: others)).toList ++ rest) := by
  rw [String.intercalate_cons_cons, String.toList_append, String.toList_append, List.append_assoc, List.append_assoc]
  rfl

/-- Arguments are shortened one by one. -/
private theorem shortenAfter_arguments {arguments : List TypeExpr} (he : ∀ e ∈ arguments, ShortensAlike e)
    (h : Ends rest) :
    shortenAfter [] ((", ".intercalate (arguments.map TypeExpr.render)).toList ++ rest) =
      (", ".intercalate ((arguments.map TypeExpr.bare).map TypeExpr.render)).toList ++ shortenAfter [] rest := by
  induction arguments with
  | nil => rfl
  | cons first others ih =>
    obtain ⟨hfirst, hothers⟩ := List.forall_mem_cons.1 he
    cases others with
    | nil => exact hfirst rest h
    | cons second others =>
      have hcomma (cs : List Char) : Ends (',' :: cs) := ends_cons (by decide) (by decide) cs
      simp only [List.map_cons, toList_separated_cons_cons] at ih ⊢
      rw [hfirst _ (hcomma _), shortenAfter_nil_cons (by decide) (by decide),
        shortenAfter_nil_cons (by decide) (by decide), ih hothers]

private theorem shortensAlike (e : TypeExpr) : ShortensAlike e := by
  induction e using TypeExpr.bare.induct with
  | case1 modules name arguments ih =>
    intro rest h
    have hname : (path [name]).toList = name.chars := toList_path_singleton name
    rw [TypeExpr.bare, TypeExpr.render, TypeExpr.render, List.isEmpty_map, List.nil_append]
    by_cases hempty : arguments.isEmpty = true
    · rw [if_pos hempty, if_pos hempty, shortenAfter_path modules name h, hname]
    · have hangle (cs : List Char) : Ends ('<' :: cs) := ends_cons (by decide) (by decide) cs
      have hclose : Ends ('>' :: rest) := ends_cons (by decide) (by decide) rest
      have hbracketed (start inner : String) :
          (start ++ "<" ++ inner ++ ">").toList ++ rest = start.toList ++ '<' :: (inner.toList ++ '>' :: rest) := by
        simp
      rw [if_neg hempty, if_neg hempty, hbracketed, shortenAfter_path modules name (hangle _),
        shortenAfter_nil_cons (by decide) (by decide), shortenAfter_arguments ih hclose,
        shortenAfter_nil_cons (by decide) (by decide)]
      simp [hname]

private theorem TypeExpr.bare_bare (e : TypeExpr) : e.bare.bare = e.bare := by
  induction e using TypeExpr.bare.induct with
  | case1 modules name arguments ih =>
    rw [bare, bare, List.map_map]
    exact congrArg (mk [] name) (List.map_congr_left ih)

/-- The short form of a written type is the type with every path cut to its last segment, at any depth of arguments.
So shortening it again changes nothing. -/
theorem short_render (e : TypeExpr) :
    short e.render = e.bare.render ∧ short (short e.render) = short e.render := by
  have hshort (e : TypeExpr) : short e.render = e.bare.render := by
    have h := shortensAlike e [] ends_nil
    rw [List.append_nil, shortenAfter, List.reverse_nil, List.append_nil] at h
    rw [short, h, String.ofList_toList]
  refine ⟨hshort e, ?_⟩
  rw [hshort e, hshort e.bare, e.bare_bare]

example : short "std::collections::HashMap<alloc::string::String, alloc::vec::Vec<core::time::Duration>>" =
    "HashMap<String, Vec<Duration>>" := by
  decide +kernel

end LayeredConfig.TypeName
