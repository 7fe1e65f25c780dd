import LayeredConfig.Proofs.Document.Outline
import LayeredConfig.Proofs.ListText
import LayeredConfig.Toml
import LayeredConfig.Yaml

/-!
# The entries of documents

Both formats turn a document into the entries of its outline (`Toml.flattenInto_eq`, `Yaml.flattenInto_eq`), so what
holds of outlines holds of both: the entries are the nodes that are no tables, each once (`flatten_lossless`).  A tree
of texts, whole numbers and truth values has the same entries in both formats, whatever the order of its members and
whatever the tags.
-/

namespace LayeredConfig

open Text (trimmed)

/-- A written list of some items: it reads as the items, trimmed and without the empty ones. -/
def ListText.Lists (items : List String) (text : String) : Prop :=
  ListText.split text = some ((items.map trimmed).filter fun item => !item.isEmpty)

/-! ### TOML -/

namespace Toml

mutual

/-- The tables of a document. -/
def outline : Toml → Outline Toml
  | table members => .table (outlineMembers members)
  | value => .leaf value

/-- The tables of the members of a table. -/
def outlineMembers : List (String × Toml) → List (String × Outline Toml)
  | [] => []
  | (key, value) :: rest => (key, value.outline) :: outlineMembers rest

end

/-- The text of the entry of a value that is no table. -/
def entryText : Toml → String
  | array items => listText items
  | value => value.scalarText?.getD ""

/-- The texts of scalars. -/
inductive IsText : Toml → String → Prop
  | text (s : String) : IsText (.text s) s
  | integer (n : Int) : IsText (.integer n) (toString n)
  | float (x : Binary) : IsText (.float x) (Decimal.render .double x)
  | yes : IsText (.boolean true) "true"
  | no : IsText (.boolean false) "false"
  | moment (s : String) : IsText (.moment s) s

private theorem scalarText?_eq_some_iff (t : Toml) (text : String) : t.scalarText? = some text ↔ IsText t text := by
  constructor
  · intro h
    cases t with
    | array items => nomatch h
    | table members => nomatch h
    | text s =>
      obtain rfl := Option.some.inj h
      exact .text s
    | integer n =>
      obtain rfl := Option.some.inj h
      exact .integer n
    | float x =>
      obtain rfl := Option.some.inj h
      exact .float x
    | boolean b =>
      obtain rfl := Option.some.inj h
      cases b with
      | true => exact .yes
      | false => exact .no
    | moment s =>
      obtain rfl := Option.some.inj h
      exact .moment s
  · intro h
    cases h with
    | _ => rfl

/-- What shows a value that is no table: the text of a scalar, and for an array a list of the texts of the scalars in
it. -/
inductive Shows : Toml → String → Prop
  | scalar {t : Toml} {written : String} (h : IsText t written) : Shows t written
  | array {items : List Toml} {texts : List String} {written : String} (htexts : Scalars IsText items texts)
    (h : ListText.Lists texts written) : Shows (.array items) written

private theorem shows_of_scalarText? {t : Toml} {written : String} (h : t.scalarText? = some written) :
    Shows t written :=
  .scalar ((scalarText?_eq_some_iff t written).1 h)

mutual

private theorem shows_entryText (t : Toml) : ∀ l ∈ t.outline.leaves, Shows l.2 (entryText l.2) := by
  cases t with
  | table members => exact shows_entryText_of_mem_members members
  | array items =>
    have hlists : ListText.Lists (items.filterMap scalarText?) (listText items) := ListText.split_join_trimmed _
    exact List.forall_mem_singleton.2 (.array (scalars_filterMap scalarText?_eq_some_iff items) hlists)
  | _ => exact List.forall_mem_singleton.2 (shows_of_scalarText? rfl)

private theorem shows_entryText_of_mem_members (members : List (String × Toml)) :
    ∀ l ∈ Outline.memberLeaves (outlineMembers members), Shows l.2 (entryText l.2) := by
  cases members with
  | nil => simp [outlineMembers, Outline.memberLeaves]
  | cons p rest =>
    obtain ⟨key, value⟩ := p
    intro l hl
    rcases List.mem_append.1 hl with hl | hl
    · obtain ⟨inner, hinner, rfl⟩ := List.mem_map.1 hl
      exact shows_entryText value inner hinner
    · exact shows_entryText_of_mem_members rest l hl

end

mutual

/-- The entries of a value are those of its outline. -/
theorem flattenInto_eq (path : String) (e : Entries) (t : Toml) :
    flattenInto path e t = e.putAll (Outline.rows entryText t.outline.leaves path) := by
  cases t with
  | table members => exact flattenMembers_eq path e members
  | _ => rfl

private theorem flattenMembers_eq (path : String) (e : Entries) (members : List (String × Toml)) :
    flattenMembers path e members =
      e.putAll (Outline.rows entryText (Outline.memberLeaves (outlineMembers members)) path) := by
  cases members with
  | nil => rfl
  | cons p rest =>
    obtain ⟨key, value⟩ := p
    rw [flattenMembers, flattenMembers_eq path _ rest, flattenInto_eq (KeyPath.join path key) e value,
      outlineMembers, Outline.memberLeaves, Outline.rows_append, Outline.rows_below, Entries.putAll_append]

end

private theorem flatten_eq (t : Toml) : flatten t = Entries.ofPairs (Outline.rows entryText t.outline.leaves "") :=
  flattenInto_eq "" Entries.empty t

end Toml

/-! ### YAML -/

namespace Yaml

mutual

/-- The tables of a document whose keys are scalars, below any tags. -/
def outline? : Yaml → Option (Outline Yaml)
  | mapping members => (outlineMembers? members).map .table
  | tagged _ value => value.outline?
  | value => some (.leaf value)

/-- The tables of the members of a mapping. -/
def outlineMembers? : List (Yaml × Yaml) → Option (List (String × Outline Yaml))
  | [] => some []
  | (key, value) :: rest =>
    match key.scalarText?, value.outline?, outlineMembers? rest with
    | some key, some value, some rest => some ((key, value) :: rest)
    | _, _, _ => none

end

/-- The text of the entry of a value that is no mapping. -/
def entryText : Yaml → String
  | sequence items => listText items
  | value => value.scalarText?.getD ""

/-- The texts of scalars, below any tags. -/
inductive IsText : Yaml → String → Prop
  | null : IsText .null ""
  | yes : IsText (.boolean true) "true"
  | no : IsText (.boolean false) "false"
  | integer (n : Int) : IsText (.integer n) (toString n)
  | float (x : Binary) : IsText (.float x) (floatText x)
  | string (s : String) : IsText (.string s) s
  | tagged {tag : String} {value : Yaml} {text : String} (h : IsText value text) : IsText (.tagged tag value) text

private theorem isText_of_scalarText? {y : Yaml} {text : String} (h : y.scalarText? = some text) : IsText y text := by
  cases y with
  | sequence items => nomatch h
  | mapping members => nomatch h
  | tagged tag value =>
    rw [scalarText?] at h
    exact .tagged (isText_of_scalarText? h)
  | null =>
    obtain rfl := Option.some.inj h
    exact .null
  | boolean b =>
    obtain rfl := Option.some.inj h
    cases b with
    | true => exact .yes
    | false => exact .no
  | integer n =>
    obtain rfl := Option.some.inj h
    exact .integer n
  | float x =>
    obtain rfl := Option.some.inj h
    exact .float x
  | string s =>
    obtain rfl := Option.some.inj h
    exact .string s

private theorem scalarText?_eq_some_iff (y : Yaml) (text : String) : y.scalarText? = some text ↔ IsText y text := by
  refine ⟨isText_of_scalarText?, fun h => ?_⟩
  induction h with
  | tagged _ ih => rwa [scalarText?]
  | _ => rfl

/-- What shows a value that is no mapping: the text of a scalar, and for a sequence a list of the texts of the scalars
in it. -/
inductive Shows : Yaml → String → Prop
  | scalar {y : Yaml} {written : String} (h : IsText y written) : Shows y written
  | sequence {items : List Yaml} {texts : List String} {written : String} (htexts : Scalars IsText items texts)
    (h : ListText.Lists texts written) : Shows (.sequence items) written

private theorem shows_of_scalarText? {y : Yaml} {written : String} (h : y.scalarText? = some written) :
    Shows y written :=
  .scalar (isText_of_scalarText? h)

private theorem outlineMembers?_cons_eq_some {key value : Yaml} {rest : List (Yaml × Yaml)}
    {members : List (String × Outline Yaml)} (h : outlineMembers? ((key, value) :: rest) = some members) :
    ∃ k o os, key.scalarText? = some k ∧ value.outline? = some o ∧ outlineMembers? rest = some os ∧
      members = (k, o) :: os := by
  rw [outlineMembers?] at h
  split at h
  · rename_i k o os hkey hvalue hrest
    exact ⟨k, o, os, hkey, hvalue, hrest, (Option.some.inj h).symm⟩
  · nomatch h

mutual

private theorem shows_entryText {y : Yaml} {o : Outline Yaml} (h : y.outline? = some o) :
    ∀ l ∈ o.leaves, Shows l.2 (entryText l.2) := by
  cases y with
  | mapping members =>
    obtain ⟨members', hmembers, rfl⟩ := Option.map_eq_some_iff.1 h
    exact shows_entryText_of_mem_members hmembers
  | tagged tag value =>
    rw [outline?] at h
    exact shows_entryText h
  | sequence items =>
    obtain rfl := Option.some.inj h
    have hlists : ListText.Lists (items.filterMap scalarText?) (listText items) := ListText.split_join_trimmed _
    exact List.forall_mem_singleton.2 (.sequence (scalars_filterMap scalarText?_eq_some_iff items) hlists)
  | _ =>
    obtain rfl := Option.some.inj h
    exact List.forall_mem_singleton.2 (shows_of_scalarText? rfl)

private theorem shows_entryText_of_mem_members {members : List (Yaml × Yaml)} {members' : List (String × Outline Yaml)}
    (h : outlineMembers? members = some members') :
    ∀ l ∈ Outline.memberLeaves members', Shows l.2 (entryText l.2) := by
  cases members with
  | nil =>
    obtain rfl := Option.some.inj h
    exact fun l hl => nomatch hl
  | cons p rest =>
    obtain ⟨key, value⟩ := p
    obtain ⟨k, o, os, -, hvalue, hrest, rfl⟩ := outlineMembers?_cons_eq_some h
    intro l hl
    rcases List.mem_append.1 hl with hl | hl
    · obtain ⟨inner, hinner, rfl⟩ := List.mem_map.1 hl
      exact shows_entryText hvalue inner hinner
    · exact shows_entryText_of_mem_members hrest l hl

end

mutual

/-- The entries of a value are those of its outline. -/
theorem flattenInto_eq (path : String) (e : Entries) {y : Yaml} {o : Outline Yaml} (h : y.outline? = some o) :
    flattenInto path e y = e.putAll (Outline.rows entryText o.leaves path) := by
  cases y with
  | mapping members =>
    obtain ⟨members', hmembers, rfl⟩ := Option.map_eq_some_iff.1 h
    exact flattenMembers_eq path e hmembers
  | tagged tag value =>
    rw [outline?] at h
    rw [flattenInto]
    exact flattenInto_eq path e h
  | _ =>
    obtain rfl := Option.some.inj h
    rfl

private theorem flattenMembers_eq (path : String) (e : Entries) {members : List (Yaml × Yaml)}
    {members' : List (String × Outline Yaml)} (h : outlineMembers? members = some members') :
    flattenMembers path e members = e.putAll (Outline.rows entryText (Outline.memberLeaves members') path) := by
  cases members with
  | nil =>
    obtain rfl := Option.some.inj h
    rfl
  | cons p rest =>
    obtain ⟨key, value⟩ := p
    obtain ⟨k, o, os, hkey, hvalue, hrest, rfl⟩ := outlineMembers?_cons_eq_some h
    rw [flattenMembers, hkey]
    dsimp only
    rw [flattenMembers_eq path _ hrest, flattenInto_eq (KeyPath.join path k) e hvalue, Outline.memberLeaves,
      Outline.rows_append, Outline.rows_below, Entries.putAll_append]

end

private theorem flatten?_eq {members : List (Yaml × Yaml)} {o : Outline Yaml}
    (h : (mapping members).outline? = some o) :
    flatten? (mapping members) = some (Entries.ofPairs (Outline.rows entryText o.leaves "")) :=
  congrArg some (flattenInto_eq "" Entries.empty h)

private theorem outlineMembers?_append {before after : List (Yaml × Yaml)} {os : List (String × Outline Yaml)}
    (h : outlineMembers? (before ++ after) = some os) :
    ∃ os₁ os₂, os = os₁ ++ os₂ ∧ outlineMembers? after = some os₂ ∧
      ∀ more os₃, outlineMembers? more = some os₃ → outlineMembers? (before ++ more) = some (os₁ ++ os₃) := by
  induction before generalizing os with
  | nil => exact ⟨[], os, rfl, h, fun _ _ hmore => hmore⟩
  | cons p before ih =>
    obtain ⟨key, value⟩ := p
    obtain ⟨k, o, rest, hkey, hvalue, hrest, rfl⟩ := outlineMembers?_cons_eq_some h
    obtain ⟨os₁, os₂, rfl, hafter, hmore⟩ := ih hrest
    refine ⟨(k, o) :: os₁, os₂, rfl, hafter, fun more os₃ hos₃ => ?_⟩
    rw [List.cons_append, outlineMembers?, hkey, hvalue, hmore more os₃ hos₃]
    rfl

end Yaml

/-! ### The same tree in both formats -/

mutual

/-- A tree of texts, whole numbers, truth values, arrays and tables in both formats.  Tags do not count. -/
inductive SameTree : Toml → Yaml → Prop
  | text (s : String) : SameTree (.text s) (.string s)
  | integer (n : Int) : SameTree (.integer n) (.integer n)
  | boolean (b : Bool) : SameTree (.boolean b) (.boolean b)
  | array {items : List Toml} {items' : List Yaml} (h : SameItems items items') :
    SameTree (.array items) (.sequence items')
  | table {members : List (String × Toml)} {members' : List (Yaml × Yaml)} (h : SameMembers members members') :
    SameTree (.table members) (.mapping members')
  | tagged {t : Toml} {y : Yaml} (tag : String) (h : SameTree t y) : SameTree t (.tagged tag y)

/-- The same items in the same order. -/
inductive SameItems : List Toml → List Yaml → Prop
  | nil : SameItems [] []
  | cons {t : Toml} {y : Yaml} {items : List Toml} {items' : List Yaml} (h : SameTree t y)
    (hrest : SameItems items items') : SameItems (t :: items) (y :: items')

/-- The same members in any order. -/
inductive SameMembers : List (String × Toml) → List (Yaml × Yaml) → Prop
  | nil : SameMembers [] []
  | cons {key : String} {key' : Yaml} {t : Toml} {y : Yaml} {members : List (String × Toml)}
    {before after : List (Yaml × Yaml)} (hkey : key'.scalarText? = some key) (h : SameTree t y)
    (hrest : SameMembers members (before ++ after)) :
    SameMembers ((key, t) :: members) (before ++ (key', y) :: after)

end

private theorem SameTree.scalarText?_eq : ∀ {t : Toml} {y : Yaml}, SameTree t y → y.scalarText? = t.scalarText?
  | _, _, .text _ | _, _, .integer _ | _, _, .boolean _ | _, _, .array _ | _, _, .table _ => rfl
  | _, _, .tagged _ h => by
    rw [Yaml.scalarText?]
    exact h.scalarText?_eq

private theorem SameItems.listText_eq {items : List Toml} {items' : List Yaml} (h : SameItems items items') :
    Yaml.listText items' = Toml.listText items := by
  have htexts {items : List Toml} {items' : List Yaml} (h : SameItems items items') :
      items'.filterMap Yaml.scalarText? = items.filterMap Toml.scalarText? := by
    induction items generalizing items' with
    | nil => cases h; rfl
    | cons t items ih =>
      cases h with
      | cons h hrest => rw [List.filterMap_cons, List.filterMap_cons, h.scalarText?_eq, ih hrest]
  rw [Yaml.listText, htexts h, Toml.listText]

/-- The leaves of two outlines have the same texts at the same paths, in any order. -/
def SameLeaves (leaves : List (List String × Toml)) (leaves' : List (List String × Yaml)) : Prop :=
  (leaves'.map fun l => (l.1, l.2.entryText)).Perm (leaves.map fun l => (l.1, l.2.entryText))

private theorem SameLeaves.below {leaves : List (List String × Toml)} {leaves' : List (List String × Yaml)}
    (h : SameLeaves leaves leaves') (key : String) :
    SameLeaves (leaves.map fun l => (key :: l.1, l.2)) (leaves'.map fun l => (key :: l.1, l.2)) := by
  have hbelow := List.Perm.map (fun l : List String × String => (key :: l.1, l.2)) h
  rw [List.map_map, List.map_map] at hbelow
  rw [SameLeaves, List.map_map, List.map_map]
  exact hbelow

private theorem SameLeaves.perm_rows {leaves : List (List String × Toml)} {leaves' : List (List String × Yaml)}
    (h : SameLeaves leaves leaves') (path : String) :
    (Outline.rows Yaml.entryText leaves' path).Perm (Outline.rows Toml.entryText leaves path) := by
  have hrows := List.Perm.map (fun l : List String × String => (l.1.foldl KeyPath.join path, l.2)) h
  rw [List.map_map, List.map_map] at hrows
  exact hrows

mutual

/-- The same tree has the same leaves in both formats. -/
private theorem SameTree.sameLeaves : ∀ {t : Toml} {y : Yaml}, SameTree t y →
    ∃ o, y.outline? = some o ∧ SameLeaves t.outline.leaves o.leaves
  | _, _, .text _ | _, _, .integer _ | _, _, .boolean _ => ⟨_, rfl, .refl _⟩
  | _, _, .array h => ⟨_, rfl, .of_eq (congrArg (fun text => [([], text)]) h.listText_eq)⟩
  | _, _, .table h => by
    obtain ⟨os, hos, hleaves⟩ := h.sameLeaves
    exact ⟨.table os, congrArg (Option.map Outline.table) hos, hleaves⟩
  | _, _, .tagged _ h => by
    rw [Yaml.outline?]
    exact h.sameLeaves

private theorem SameMembers.sameLeaves : ∀ {members : List (String × Toml)} {members' : List (Yaml × Yaml)},
    SameMembers members members' → ∃ os, Yaml.outlineMembers? members' = some os ∧
      SameLeaves (Outline.memberLeaves (Toml.outlineMembers members)) (Outline.memberLeaves os)
  | _, _, .nil => ⟨[], rfl, .refl _⟩
  | _, _, @SameMembers.cons key key' _ y _ _ after hkey h hrest => by
    obtain ⟨o, ho, hleaves⟩ := h.sameLeaves
    obtain ⟨os, hos, hmembers⟩ := hrest.sameLeaves
    obtain ⟨os₁, os₂, rfl, hafter, hmore⟩ := Yaml.outlineMembers?_append hos
    have hadded : Yaml.outlineMembers? ((key', y) :: after) = some ((key, o) :: os₂) := by
      rw [Yaml.outlineMembers?, hkey, ho, hafter]
    refine ⟨_, hmore _ _ hadded, ?_⟩
    rw [SameLeaves, Outline.memberLeaves_append, List.map_append] at hmembers ⊢
    rw [Outline.memberLeaves, List.map_append, Toml.outlineMembers, Outline.memberLeaves, List.map_append]
    -- The new member stands first in one format, and anywhere in the other.
    refine (List.perm_append_comm_assoc _ _ _).trans ?_
    exact (hleaves.below key).append hmembers

end

/-- In both formats the entries of a document with plain and different keys are its nodes that are no tables, each
once under its dotted path: a scalar with its text, an array with a list text of its scalars.  The same tree of texts,
whole numbers and truth values has the same entries in both formats. -/
theorem flatten_lossless :
    (∀ members : List (String × Toml), (Toml.table members).outline.WellKeyed →
      Flattens (Toml.table members).outline.leaves Toml.Shows (Toml.flatten (.table members))) ∧
    (∀ (members : List (Yaml × Yaml)) (o : Outline Yaml), (Yaml.mapping members).outline? = some o → o.WellKeyed →
      ∃ e, Yaml.flatten? (.mapping members) = some e ∧ Flattens o.leaves Yaml.Shows e) ∧
    ∀ (members : List (String × Toml)) (members' : List (Yaml × Yaml)),
      SameTree (.table members) (.mapping members') → (Toml.table members).outline.WellKeyed →
      Yaml.flatten? (.mapping members') = some (Toml.flatten (.table members)) := by
  refine ⟨fun members hkeys => ?_, fun members o ho hkeys => ?_, fun members members' hsame hkeys => ?_⟩
  · rw [Toml.flatten_eq]
    exact hkeys.flattens (Toml.shows_entryText _)
  · exact ⟨_, Yaml.flatten?_eq ho, hkeys.flattens (Yaml.shows_entryText ho)⟩
  · obtain ⟨o, ho, hleaves⟩ := hsame.sameLeaves
    have hrows := hleaves.perm_rows ""
    have hnodup : ((Outline.rows Toml.entryText (Toml.table members).outline.leaves "").map Prod.fst).Nodup := by
      rw [hkeys.map_fst_rows]
      exact hkeys.nodup_dotted
    have hnodup' := ((hrows.map Prod.fst).nodup_iff).2 hnodup
    rw [Yaml.flatten?_eq ho, Toml.flatten_eq]
    refine congrArg some (Entries.eq_of_perm ?_)
    exact (Entries.perm_ofPairs hnodup').trans (hrows.trans (Entries.perm_ofPairs hnodup).symm)

/-- A server and its hosts in one format. -/
def serversToml : List (String × Toml) :=
  [("debug", .boolean true),
   ("server", .table [("hosts", .array [.text "a,b", .integer 2, .array [.text "c"]]), ("port", .integer 8080)])]

/-- The same in the other format, with members in another order, a tag, and a key that is no text. -/
def serversYaml : List (Yaml × Yaml) :=
  [(.string "server", .tagged "node" (.mapping
      [(.string "port", .integer 8080),
       (.string "hosts", .sequence [.string "a,b", .integer 2, .sequence [.string "c"]])])),
   (.tagged "flag" (.string "debug"), .boolean true)]

private theorem SameMembers.cons_head {key : String} {key' : Yaml} {t : Toml} {y : Yaml}
    {members : List (String × Toml)} {members' : List (Yaml × Yaml)} (hkey : key'.scalarText? = some key)
    (h : SameTree t y)
    (hrest : SameMembers members members') : SameMembers ((key, t) :: members) ((key', y) :: members') :=
  @SameMembers.cons key key' t y members [] members' hkey h hrest

private theorem sameTree_servers : SameTree (.table serversToml) (.mapping serversYaml) := by
  have hhosts : SameItems [.text "a,b", .integer 2, .array [.text "c"]]
      [.string "a,b", .integer 2, .sequence [.string "c"]] :=
    .cons (.text _) (.cons (.integer _) (.cons (.array (.cons (.text _) .nil)) .nil))
  have hserver : SameMembers
      [("hosts", .array [.text "a,b", .integer 2, .array [.text "c"]]), ("port", .integer 8080)]
      ([(.string "port", .integer 8080)] ++
        (.string "hosts", .sequence [.string "a,b", .integer 2, .sequence [.string "c"]]) :: []) :=
    .cons rfl (.array hhosts) (.cons_head rfl (.integer _) .nil)
  have hrest : SameMembers (serversToml.drop 1) ([serversYaml[0]] ++ []) :=
    .cons_head rfl (.tagged _ (.table hserver)) .nil
  exact .table (.cons rfl (.boolean _) hrest)

/-- Both have three entries, and that of the hosts reads as two items. -/
theorem flatten_lossless_servers :
    (Toml.table serversToml).outline.WellKeyed ∧
      Flattens (Toml.table serversToml).outline.leaves Toml.Shows (Toml.flatten (.table serversToml)) ∧
      Yaml.flatten? (.mapping serversYaml) = some (Toml.flatten (.table serversToml)) ∧
      (Toml.flatten (.table serversToml)).pairs =
        [("debug", "true"), ("server.hosts", "a\\,b,2"), ("server.port", "8080")] ∧
      ListText.split "a\\,b,2" = some ["a,b", "2"] := by
  have hkeys : (Toml.table serversToml).outline.WellKeyed :=
    ⟨by decide, by decide, trivial, by decide, ⟨by decide, by decide, trivial, by decide, trivial, trivial⟩, trivial⟩
  obtain ⟨htoml, -, hsame⟩ := flatten_lossless
  exact ⟨hkeys, htoml serversToml hkeys, hsame serversToml serversYaml sameTree_servers hkeys, by decide +kernel,
    by decide +kernel⟩

end LayeredConfig
