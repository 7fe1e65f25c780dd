import LayeredConfig.Registry
import LayeredConfig.Proofs.Lookup

/-!
# Types under their names

A text can name a type, by its full name or by its short one, and what it names depends on the table of the types
that are known at the moment.  When no two types of an application share a name, a name that was ever read as a type
is read as that type for good: a later entry of the table is an entry for the same type
(`TypeNames.within_of_suffix`).  Then no conversion that succeeded once comes out differently when more types are
known (`Converter.convert_within`).
-/

namespace LayeredConfig

namespace ValueType

/-- The names under which a type is known. -/
def names (t : ValueType) : List String := [t.fullName, t.shortName]

/-- The types that an application with some types of its own can ask for. -/
def IsKnown (customTypes : List CustomType) : ValueType → Prop
  | custom name => ∃ t ∈ customTypes, t.fullName = name
  | list element => element.IsKnown customTypes
  | _ => True

/-- No two types of an application share a name. -/
def NamesApart (customTypes : List CustomType) : Prop :=
  ∀ t u : ValueType, t.IsKnown customTypes → u.IsKnown customTypes → ∀ name ∈ t.names, name ∈ u.names → t = u

/-! ### Names of lists -/

/-- What the names of lists begin with. -/
def listPrefixes : List (List Char) := ["alloc::vec::Vec<".toList, "Vec<".toList]

/-- The types of an application that are no lists. -/
def plain (customTypes : List CustomType) : List ValueType := basic ++ customTypes.map fun t => custom t.fullName

/-- No two types that are no lists share a name, and none has a name like that of a list. -/
def PlainNamesApart (customTypes : List CustomType) : Prop :=
  (∀ t ∈ plain customTypes, ∀ u ∈ plain customTypes, ∀ name ∈ t.names, name ∈ u.names → t = u) ∧
    ∀ t ∈ plain customTypes, ∀ name ∈ t.names, ∀ start ∈ listPrefixes, ¬ start <+: name.toList

instance (customTypes : List CustomType) : Decidable (PlainNamesApart customTypes) :=
  inferInstanceAs (Decidable (_ ∧ _))

private theorem fullName_list (element : ValueType) :
    (list element).fullName.toList = "alloc::vec::Vec<".toList ++ element.fullName.toList ++ ['>'] := by
  show ("alloc::vec::Vec<" ++ element.fullName ++ ">").toList = _
  rw [String.toList_append, String.toList_append]
  rfl

private theorem not_path_close {c : Char} {cs : List Char} (h : ∀ cs', c = ':' → cs = ':' :: cs' → False) :
    ∀ cs', c = ':' → cs ++ ['>'] = ':' :: cs' → False := by
  intro cs' hc hcs
  cases cs with
  | nil => simp at hcs
  | cons d cs =>
    obtain ⟨rfl, -⟩ := List.cons.inj hcs
    exact h cs hc rfl

private theorem shortenAfter_close (segment cs : List Char) :
    TypeName.shortenAfter segment (cs ++ ['>']) = TypeName.shortenAfter segment cs ++ ['>'] := by
  fun_induction TypeName.shortenAfter segment cs with
  | case1 segment => rfl
  | case2 segment cs ih => simpa [TypeName.shortenAfter] using ih
  | case3 segment c cs hne hc ih =>
    rw [List.cons_append, TypeName.shortenAfter.eq_3 _ _ _ (not_path_close hne), if_pos hc, ih]
  | case4 segment c cs hne hc ih =>
    rw [List.cons_append, TypeName.shortenAfter.eq_3 _ _ _ (not_path_close hne), if_neg hc, ih, List.append_assoc,
      List.cons_append]

private theorem shortName_list (element : ValueType) :
    (list element).shortName.toList = "Vec<".toList ++ element.shortName.toList ++ ['>'] := by
  have hstart (cs : List Char) : TypeName.shortenAfter [] ("alloc::vec::Vec<".toList ++ cs) =
      "Vec<".toList ++ TypeName.shortenAfter [] cs := rfl
  rw [shortName, TypeName.short, String.toList_ofList, fullName_list, List.append_assoc, hstart, shortenAfter_close]
  simp [shortName, TypeName.short]

private theorem prefix_of_mem_names_list {element : ValueType} {name : String} (h : name ∈ (list element).names) :
    ∃ start ∈ listPrefixes, start <+: name.toList := by
  rcases List.mem_cons.1 h with rfl | h
  · refine ⟨_, List.mem_cons_self, ?_⟩
    rw [fullName_list, List.append_assoc]
    exact List.prefix_append _ _
  · obtain rfl := List.mem_singleton.1 h
    refine ⟨_, List.mem_cons_of_mem _ List.mem_cons_self, ?_⟩
    rw [shortName_list, List.append_assoc]
    exact List.prefix_append _ _

private theorem mem_plain_of_isKnown {customTypes : List CustomType} {t : ValueType} (h : t.IsKnown customTypes)
    (hlist : ∀ element, t ≠ list element) : t ∈ plain customTypes := by
  cases t with
  | custom name =>
    obtain ⟨c, hc, rfl⟩ := h
    exact List.mem_append_right _ (List.mem_map_of_mem hc)
  | list element => exact absurd rfl (hlist element)
  | whole kind => cases kind <;> exact List.mem_append_left _ (by decide)
  | float format => cases format <;> exact List.mem_append_left _ (by decide)
  | _ => exact List.mem_append_left _ (by decide)

/-- Lists that share a name have elements that share one. -/
private theorem exists_mem_names_of_list {t u : ValueType} {name : String} (ht : name ∈ (list t).names)
    (hu : name ∈ (list u).names) : ∃ inner ∈ t.names, inner ∈ u.names := by
  have hfull (a b : ValueType) (h : (list a).fullName = (list b).fullName) : a.fullName = b.fullName := by
    have := congrArg String.toList h
    rw [fullName_list, fullName_list] at this
    exact String.ext (List.append_cancel_left (List.append_cancel_right this))
  have hshort (a b : ValueType) (h : (list a).shortName = (list b).shortName) : a.shortName = b.shortName := by
    have := congrArg String.toList h
    rw [shortName_list, shortName_list] at this
    exact String.ext (List.append_cancel_left (List.append_cancel_right this))
  have hmixed (a b : ValueType) : (list a).fullName ≠ (list b).shortName := by
    intro h
    have := congrArg String.toList h
    rw [fullName_list, shortName_list] at this
    simp at this
  simp only [names, List.mem_cons, List.not_mem_nil, or_false] at ht hu ⊢
  rcases ht with rfl | rfl <;> rcases hu with hu | hu
  · exact ⟨_, .inl rfl, .inl (hfull t u hu)⟩
  · exact absurd hu (hmixed t u)
  · exact absurd hu.symm (hmixed u t)
  · exact ⟨_, .inr rfl, .inr (hshort t u hu)⟩

private theorem eq_of_mem_plain {customTypes : List CustomType} (h : PlainNamesApart customTypes) {t u : ValueType}
    (ht : t ∈ plain customTypes) (hu : u.IsKnown customTypes) {name : String} (hname : name ∈ t.names)
    (hname' : name ∈ u.names) : t = u := by
  by_cases hl : ∃ element, u = list element
  · obtain ⟨element, rfl⟩ := hl
    obtain ⟨start, hstart, hprefix⟩ := prefix_of_mem_names_list hname'
    exact absurd hprefix (h.2 t ht name hname start hstart)
  · exact h.1 t ht u (mem_plain_of_isKnown hu fun element heq => hl ⟨element, heq⟩) name hname hname'

/-- Whether two types share a name shows on those that are no lists. -/
theorem namesApart_of_plain {customTypes : List CustomType} (h : PlainNamesApart customTypes) :
    NamesApart customTypes := by
  intro t u ht hu name hname hname'
  induction t generalizing u name with
  | list t ih =>
    by_cases hl : ∃ element, u = list element
    · obtain ⟨u, rfl⟩ := hl
      obtain ⟨inner, hinner, hinner'⟩ := exists_mem_names_of_list hname hname'
      rw [ih u ht hu inner hinner hinner']
    · have hu' := mem_plain_of_isKnown hu fun element heq => hl ⟨element, heq⟩
      exact (eq_of_mem_plain h hu' ht hname' hname).symm
  | _ => exact eq_of_mem_plain h (mem_plain_of_isKnown ht (by simp)) hu hname hname'

end ValueType

/-! ### Tables of names -/

namespace TypeNames

/-- The entries are names of types of the application. -/
def Sound (customTypes : List CustomType) (names : TypeNames) : Prop :=
  ∀ p ∈ names, p.1 ∈ p.2.names ∧ p.2.IsKnown customTypes

/-- What the first table names, the second one names alike. -/
def Within (names names' : TypeNames) : Prop := ∀ name t, names.lookup name = some t → names'.lookup name = some t

/-- Further entries do not change what a name stands for. -/
theorem within_of_suffix {customTypes : List CustomType} (hnames : ValueType.NamesApart customTypes)
    {names names' : TypeNames} (hsound : Sound customTypes names') (h : names <:+ names') : Within names names' := by
  intro name t ht
  have ht' := h.subset (mem_of_lookup ht)
  obtain ⟨u, hu⟩ : ∃ u, names'.lookup name = some u :=
    Option.isSome_iff_exists.1 (List.lookup_isSome_iff.2 ⟨_, ht', by simp⟩)
  obtain ⟨htname, htknown⟩ := hsound _ ht'
  obtain ⟨huname, huknown⟩ := hsound _ (mem_of_lookup hu)
  rw [hu, hnames t u htknown huknown name htname huname]

end TypeNames

/-! ### Conversions -/

section

variable {α β ε : Type}

theorem bind_eq_ok {x : Except ε α} {f : α → Except ε β} {b : β} :
    (x >>= f) = .ok b ↔ ∃ a, x = .ok a ∧ f a = .ok b := by
  cases x with
  | error e => simp [bind, Except.bind]
  | ok a => simp [bind, Except.bind]

theorem mapM_ok_of_imp {f g : α → Except ε β} (h : ∀ a b, f a = .ok b → g a = .ok b) {l : List α} {bs : List β}
    (hl : l.mapM f = .ok bs) : l.mapM g = .ok bs := by
  induction l generalizing bs with
  | nil => exact hl
  | cons a l ih =>
    rw [List.mapM_cons] at hl ⊢
    obtain ⟨b, hb, hl⟩ := bind_eq_ok.1 hl
    obtain ⟨bs', hbs, hl⟩ := bind_eq_ok.1 hl
    exact bind_eq_ok.2 ⟨b, h a b hb, bind_eq_ok.2 ⟨bs', ih hbs, hl⟩⟩

end

namespace Converter

variable {names names' : TypeNames}

theorem settle_eq_ok {target wanted : ValueType} {raw : String} {x : Except Refusal Value} {v : Value} :
    settle target wanted raw x = .ok v ↔ target = wanted ∧ x = .ok v := by
  cases x with
  | error refusal => simp [settle]
  | ok w =>
    unfold settle
    by_cases h : target = wanted
    · simp [h]
    · simp [h]

private theorem run_within (h : TypeNames.Within names names') {c : Converter} {raw : String} {v : Value}
    (hv : c.run names raw = .ok v) : c.run names' raw = .ok v := by
  induction c generalizing raw v with
  | reading target read => exact hv
  | typeNames =>
    unfold run at hv ⊢
    cases ht : names.lookup (Text.trimmed raw) with
    | none => simp [ht] at hv
    | some t =>
      rw [h _ t ht]
      rwa [ht] at hv
  | list element item ih =>
    unfold run at hv ⊢
    cases hs : ListText.split raw with
    | none => simp [hs] at hv
    | some tokens =>
      simp only [hs] at hv ⊢
      cases hm : tokens.mapM (fun token => settle item.target element token (run names item token)) with
      | error e => simp [hm] at hv
      | ok values =>
        -- A list is read item by item, so it is enough that its items are read alike.
        have hm' :
            tokens.mapM (fun token => settle item.target element token (run names' item token)) = .ok values := by
          refine mapM_ok_of_imp (fun token v hv => ?_) hm
          obtain ⟨htarget, hrun⟩ := settle_eq_ok.1 hv
          exact settle_eq_ok.2 ⟨htarget, ih hrun⟩
        rw [hm']
        rwa [hm] at hv

/-- A text that was read once is read alike when more types are known. -/
theorem convert_within (h : TypeNames.Within names names') {c : Converter} {wanted : ValueType} {raw : String}
    {v : Value} (hv : c.convert names wanted raw = .ok v) : c.convert names' wanted raw = .ok v := by
  obtain ⟨htarget, hrun⟩ := settle_eq_ok.1 hv
  exact settle_eq_ok.2 ⟨htarget, run_within h hrun⟩

/-- Whether a converter looks at the names of types. -/
def readsNames : Converter → Bool
  | reading _ _ => false
  | typeNames => true
  | list _ item => item.readsNames

/-- A converter that does not look at names reads a text in one way. -/
private theorem run_of_not_readsNames {c : Converter} (h : c.readsNames = false) (names names' : TypeNames)
    (raw : String) : c.run names' raw = c.run names raw := by
  induction c generalizing raw with
  | reading target read => rfl
  | typeNames => nomatch h
  | list element item ih =>
    have hitem : item.run names' = item.run names := funext (ih h)
    unfold run
    rw [hitem]

theorem convert_of_not_readsNames {c : Converter} (h : c.readsNames = false) (names names' : TypeNames)
    (wanted : ValueType) (raw : String) : c.convert names' wanted raw = c.convert names wanted raw := by
  rw [convert, run_of_not_readsNames h names names', convert]

end Converter

end LayeredConfig
