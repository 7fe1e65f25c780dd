import LayeredConfig.CommandLine.Setup
import LayeredConfig.Proofs.Store.Building
import LayeredConfig.Proofs.Text.Ascii
import LayeredConfig.Proofs.Text.ByteOrder

/-!
# The order of layers

The engine of an invocation consults the definitions on the command line, then the environment, then the files in the
order of their paths (`exists_ofLayers`), as long as no layer gives itself another rank.
-/

namespace LayeredConfig.CommandLine

/-- The key of a definition: what stands before the first equals sign, trimmed. -/
def definedKey (definition : String) : String :=
  String.ofList (Text.trim (definition.toList.takeWhile (· ≠ '=')))

/-- The text of a definition: what stands behind the first equals sign. -/
def definedText (definition : String) : String := String.ofList (definition.toList.dropWhile (· ≠ '=')).tail

/-- The text of the last definition of a key. -/
def lastDefinition? (definitions : List String) (key : String) : Option String :=
  (definitions.reverse.find? fun definition => definedKey definition = key).map definedText

/-- A letter or a digit of ASCII. -/
def isLetterOrDigit (c : Char) : Bool := 'A' ≤ c && c ≤ 'Z' || 'a' ≤ c && c ≤ 'z' || '0' ≤ c && c ≤ '9'

/-- The capital of a letter of ASCII, 32 places before it; other characters stay. -/
def capital (c : Char) : Char := if 'a' ≤ c ∧ c ≤ 'z' then Char.ofNat (c.toNat - 32) else c

/-- The names of variables that may stand for a key: the key itself, then with underscores in place of all characters
but letters and digits, and then that in capitals. -/
def variableNames (key : String) : List String :=
  let underscored := key.toList.map fun c => if isLetterOrDigit c then c else '_'
  [key, String.ofList underscored, String.ofList (underscored.map capital)]

/-- The text of the first variable that stands for a key. -/
def environmentText? (vars : Entries) (key : String) : Option String := (variableNames key).findSome? vars.get?

/-- The text of a key in a file. -/
def textInFile? (read : FileReader) (path key : String) : Option String :=
  (ConfigFile.load read path).toOption.bind fun entries => entries.get? key

/-- Paths in ascending order of their bytes. -/
def ascending (paths : List String) : List String := paths.mergeSort fun a b => Text.bytes a ≤ Text.bytes b

/-- The text of a key in the first of some files that defines it, in ascending order of their paths. -/
def firstInFiles? (read : FileReader) (paths : List String) (key : String) : Option String :=
  (ascending paths).findSome? fun path => textInFile? read path key

private theorem perm_ascending (paths : List String) : (ascending paths).Perm paths := List.mergeSort_perm _ _

private theorem mem_ascending {path : String} {paths : List String} : path ∈ ascending paths ↔ path ∈ paths :=
  (perm_ascending paths).mem_iff

theorem ascending_eq (paths : List String) : ascending paths = paths.mergeSort fun a b => a ≤ b := by
  simp only [ascending, Text.bytes_le_iff]

private theorem pairwise_ascending (paths : List String) : (ascending paths).Pairwise (· ≤ ·) := by
  have hsorted : (ascending paths).Pairwise fun a b => decide (a ≤ b) = true := by
    rw [ascending_eq]
    apply List.pairwise_mergeSort
    · intro a b c hab hbc
      simp only [decide_eq_true_eq] at hab hbc ⊢
      exact String.le_trans hab hbc
    · intro a b
      simpa using String.le_total a b
  exact hsorted.imp fun hab => of_decide_eq_true hab

/-- The layers that options ask for, with the definitions as they are written. -/
structure LayerOptions where
  definitions : List String
  environment : Bool
  paths : List String

namespace LayerOptions

/-- The layers of an invocation. -/
def layers (o : LayerOptions) : Layers :=
  ⟨o.paths, o.environment, o.definitions.map fun definition => (definedKey definition, definedText definition)⟩

/-- The text of a key in the first layer that defines it. -/
def text? (o : LayerOptions) (w : World) (key : String) : Option String :=
  (lastDefinition? o.definitions key).or
    ((if o.environment then environmentText? w.vars key else none).or (firstInFiles? w.read o.paths key))

/-- All files can be loaded, and no layer defines a rank of its own. -/
structure IsUnranked (o : LayerOptions) (w : World) : Prop where
  definitions : ∀ definition ∈ o.definitions, definedKey definition ≠ "config_ordinal"
  environment : o.environment = true → w.vars.get? "config_ordinal" = none
  files : ∀ path ∈ o.paths, ∃ entries, ConfigFile.load w.read path = .ok entries ∧
    entries.get? "config_ordinal" = none

instance (o : LayerOptions) (w : World) : Decidable (o.IsUnranked w) :=
  decidable_of_iff ((∀ definition ∈ o.definitions, definedKey definition ≠ "config_ordinal") ∧
      (o.environment = true → w.vars.get? "config_ordinal" = none) ∧
      ∀ path ∈ o.paths, (ConfigFile.load w.read path).toOption.any fun entries =>
        entries.get? "config_ordinal" = none) <| by
    have hfile (path : String) : ((ConfigFile.load w.read path).toOption.any fun entries =>
        entries.get? "config_ordinal" = none) ↔ ∃ entries, ConfigFile.load w.read path = .ok entries ∧
          entries.get? "config_ordinal" = none := by
      cases ConfigFile.load w.read path <;> simp [Except.toOption]
    simp only [hfile]
    exact ⟨fun ⟨hdefinitions, henvironment, hfiles⟩ => ⟨hdefinitions, henvironment, hfiles⟩,
      fun ⟨hdefinitions, henvironment, hfiles⟩ => ⟨hdefinitions, henvironment, hfiles⟩⟩

end LayerOptions

/-! ### Sources of layers -/

namespace Setup

/-- The source of a file that can be loaded. -/
def fileSource (read : FileReader) (path : String) : Source := Source.ofFile read path Source.fileOrdinal

variable {w : World} {o : LayerOptions} {paths : List String}

private theorem fileSource_of_load {read : FileReader} {path : String} {entries : Entries}
    (h : ConfigFile.load read path = .ok entries) :
    fileSource read path = Source.ofFileEntries path Source.fileOrdinal entries := by
  rw [fileSource, Source.ofFile, h]

private theorem load_eq {read : FileReader} {path : String} {entries : Entries}
    (h : ConfigFile.load read path = .ok entries) : Source.load read path = .ok (fileSource read path) := by
  rw [fileSource_of_load h, Source.load, h]
  rfl

private theorem fileSources_eq {read : FileReader}
    (h : ∀ path ∈ paths, ∃ entries, ConfigFile.load read path = .ok entries) :
    fileSources read paths = .ok (paths.map (fileSource read)) := by
  induction paths with
  | nil => rfl
  | cons path paths ih =>
    obtain ⟨entries, hload⟩ := h path List.mem_cons_self
    have hrest := ih fun path hpath => h path (List.mem_cons_of_mem _ hpath)
    unfold fileSources
    rw [load_eq hload, hrest]
    rfl

/-- All sources are put into the store, under numbers of their own. -/
private theorem addAll_spec (st : Store) (sources : List Source) :
    (addAll st sources).1.filterMap (addAll st sources).2.source? = sources ∧
      (∀ id ∈ (addAll st sources).1, id < (addAll st sources).2.next) ∧
      (∀ id < st.next, (addAll st sources).2.source? id = st.source? id) ∧
      st.next ≤ (addAll st sources).2.next ∧ (addAll st sources).2.vars = st.vars := by
  induction sources generalizing st with
  | nil => simp [addAll]
  | cons source sources ih =>
    obtain ⟨hsources, hlt, hkept, hle, hvars⟩ := ih (st.addSource source).2
    have hnext : (st.addSource source).2.next = st.next + 1 := rfl
    have hfirst : (addAll (st.addSource source).2 sources).2.source? st.next = some source := by
      rw [hkept st.next (by omega), Store.source?_addSource, if_pos rfl]
    simp only [addAll]
    refine ⟨?_, ?_, ?_, ?_, hvars⟩
    · have hfilter := List.filterMap_cons_some hfirst (l := (addAll (st.addSource source).2 sources).1)
      rw [hsources] at hfilter
      exact hfilter
    · intro id hid
      rcases List.mem_cons.1 hid with rfl | hid
      · show st.next < _
        omega
      · exact hlt id hid
    · intro id hid
      rw [hkept id (by omega), Store.source?_addSource, if_neg (Nat.ne_of_lt hid)]
    · omega

/-- The engine of some layers holds their sources, in the order of their ranks. -/
private theorem exists_sources (w : World) (l : Layers)
    (h : ∀ path ∈ l.files, ∃ entries, ConfigFile.load w.read path = .ok entries) :
    ∃ s, ofLayers w l = .ok s ∧
      s.sources.Perm (l.files.map (fileSource w.read) ++ defineSources l.defines ++
        Store.environmentSources w.vars l.environment) ∧
      s.sources.Pairwise fun a b => a.rank.before b.rank := by
  obtain ⟨hsources, hlt, -, -, hvars⟩ :=
    addAll_spec (Store.empty [] FileTree.empty w.vars) (l.files.map (fileSource w.read) ++ defineSources l.defines)
  obtain ⟨F, n, e, hbuild, he⟩ := Store.exists_build hlt l.environment
  refine ⟨⟨n.store, e⟩, ?_, ?_, he.ordered⟩
  · rw [ofLayers, fileSources_eq h]
    simp only [bind, Except.bind, hbuild, he.engine]
  · have hperm := he.perm
    rwa [hsources, hvars] at hperm

/-! ### Ranks of layers -/

/-- The source of the definitions. -/
def definitionSource (o : LayerOptions) : Source :=
  Source.ofEntries definesName definesOrdinal (Entries.ofPairs o.layers.defines)

/-- The sources of the definitions, the environment and the files in the order of their paths. -/
def ordered (w : World) (o : LayerOptions) : List Source :=
  defineSources o.layers.defines ++ (Store.environmentSources w.vars o.environment ++
    (ascending o.paths).map (fileSource w.read))

private theorem mem_defineSources {s : Source} (hs : s ∈ defineSources o.layers.defines) : s = definitionSource o := by
  unfold defineSources at hs
  split at hs
  · cases hs
  · exact List.mem_singleton.1 hs

private theorem mem_environmentSources {s : Source} (hs : s ∈ Store.environmentSources w.vars o.environment) :
    o.environment = true ∧ s = Source.ofEnvironment w.vars := by
  unfold Store.environmentSources at hs
  split at hs
  · rename_i henvironment
    exact ⟨henvironment, List.mem_singleton.1 hs⟩
  · cases hs

/-- What is defined on the command line is the last definition of each key. -/
private theorem get?_definitions (o : LayerOptions) (key : String) :
    (Entries.ofPairs o.layers.defines).get? key = lastDefinition? o.definitions key := by
  rw [Entries.get?_ofPairs, LayerOptions.layers, ← List.map_reverse, lastDefinition?]
  induction o.definitions.reverse with
  | nil => rfl
  | cons definition rest ih =>
    rw [List.map_cons, List.lookup_cons, ih, List.find?_cons]
    by_cases hkey : definedKey definition = key
    · simp [hkey]
    · have hkey' : (key == definedKey definition) = false := by simpa using Ne.symm hkey
      simp [hkey, hkey']

private theorem rankIn_of_absent {entries : Entries} (h : entries.get? "config_ordinal" = none) (default : Int) :
    Source.rankIn entries default = default := by
  have hnone : entries.get? Source.ordinalKey = none := h
  rw [Source.rankIn, hnone]
  rfl

section

variable (h : o.IsUnranked w)

include h

private theorem ordinal_definitionSource : (definitionSource o).ordinal = definesOrdinal := by
  apply rankIn_of_absent
  rw [get?_definitions, lastDefinition?, Option.map_eq_none_iff, List.find?_eq_none]
  intro definition hdefinition
  simpa using h.definitions definition (List.mem_reverse.1 hdefinition)

private theorem ordinal_environment (henvironment : o.environment = true) :
    (Source.ofEnvironment w.vars).ordinal = Source.environmentOrdinal :=
  rankIn_of_absent (h.environment henvironment) _

private theorem rank_fileSource {path : String} (hpath : path ∈ o.paths) :
    (fileSource w.read path).rank = ⟨Source.fileOrdinal, path⟩ := by
  obtain ⟨entries, hload, hordinal⟩ := h.files path hpath
  rw [fileSource_of_load hload, Source.rank, Source.ofFileEntries, rankIn_of_absent hordinal]

/-- A layer is the only one of its rank. -/
private theorem eq_of_rank_eq {s t : Source} (hs : s ∈ ordered w o) (ht : t ∈ ordered w o) (hrank : s.rank = t.rank) :
    s = t := by
  -- The rank tells the kind of a layer, and among files the path.
  have hrecover (s : Source) (hs : s ∈ ordered w o) :
      s = if s.ordinal = definesOrdinal then definitionSource o
        else if s.ordinal = Source.environmentOrdinal then Source.ofEnvironment w.vars
        else fileSource w.read s.name := by
    rcases List.mem_append.1 hs with hs | hs
    · obtain rfl := mem_defineSources hs
      rw [if_pos (ordinal_definitionSource h)]
    · rcases List.mem_append.1 hs with hs | hs
      · obtain ⟨henvironment, rfl⟩ := mem_environmentSources hs
        rw [ordinal_environment h henvironment, if_neg (by decide), if_pos rfl]
      · obtain ⟨path, hpath, rfl⟩ := List.mem_map.1 hs
        have hfile := rank_fileSource h (mem_ascending.1 hpath)
        have hordinal : (fileSource w.read path).ordinal = Source.fileOrdinal := congrArg Rank.ordinal hfile
        have hname : (fileSource w.read path).name = path := congrArg Rank.name hfile
        rw [hordinal, hname, if_neg (by decide), if_neg (by decide)]
  have hordinal : s.ordinal = t.ordinal := congrArg Rank.ordinal hrank
  have hname : s.name = t.name := congrArg Rank.name hrank
  rw [hrecover s hs, hrecover t ht, hordinal, hname]

private theorem pairwise_files :
    ((ascending o.paths).map (fileSource w.read)).Pairwise fun a b => a.rank.before b.rank := by
  rw [List.pairwise_map]
  refine (pairwise_ascending o.paths).imp_of_mem fun {a b} ha hb hab => ?_
  rw [rank_fileSource h (mem_ascending.1 ha), rank_fileSource h (mem_ascending.1 hb), Rank.before_iff]
  exact .inr ⟨rfl, hab⟩

private theorem pairwise_ordered : (ordered w o).Pairwise fun a b => a.rank.before b.rank := by
  have hbelow {s t : Source} (hlt : t.ordinal < s.ordinal) : s.rank.before t.rank := Rank.before_iff.2 (.inl hlt)
  have hfile {t : Source} (ht : t ∈ (ascending o.paths).map (fileSource w.read)) :
      t.ordinal = Source.fileOrdinal := by
    obtain ⟨path, hpath, rfl⟩ := List.mem_map.1 ht
    exact congrArg Rank.ordinal (rank_fileSource h (mem_ascending.1 hpath))
  have henvironment {t : Source} (ht : t ∈ Store.environmentSources w.vars o.environment) :
      t.ordinal = Source.environmentOrdinal := by
    obtain ⟨henvironment, rfl⟩ := mem_environmentSources ht
    exact ordinal_environment h henvironment
  rw [ordered, List.pairwise_append, List.pairwise_append]
  refine ⟨?_, ⟨?_, pairwise_files h, ?_⟩, ?_⟩
  · unfold defineSources
    split
    · exact .nil
    · exact List.pairwise_singleton _ _
  · unfold Store.environmentSources
    split
    · exact List.pairwise_singleton _ _
    · exact .nil
  · intro s hs t ht
    apply hbelow
    rw [henvironment hs, hfile ht]
    decide
  · intro s hs t ht
    apply hbelow
    rw [mem_defineSources hs, ordinal_definitionSource h]
    rcases List.mem_append.1 ht with ht | ht
    · rw [henvironment ht]
      decide
    · rw [hfile ht]
      decide

end

/-- The engine of the layers consults the definitions first, then the environment, and then the files in the order of
their paths. -/
theorem exists_ofLayers (h : o.IsUnranked w) : ∃ s, ofLayers w o.layers = .ok s ∧ s.sources = ordered w o := by
  obtain ⟨s, hs, hperm, hpairwise⟩ := exists_sources w o.layers fun path hpath =>
    (h.files path hpath).imp fun _ hload => hload.1
  have hfiles : (o.paths.map (fileSource w.read)).Perm ((ascending o.paths).map (fileSource w.read)) :=
    ((perm_ascending o.paths).map _).symm
  have hordered : s.sources.Perm (ordered w o) := by
    refine hperm.trans ?_
    rw [ordered, List.append_assoc]
    have hrest := List.perm_append_comm.trans (List.Perm.append_left
      (defineSources o.layers.defines ++ Store.environmentSources w.vars o.environment) hfiles)
    rwa [List.append_assoc] at hrest
  refine ⟨s, hs, List.Perm.eq_of_pairwise (fun a b ha hb hab hba => ?_) hpairwise (pairwise_ordered h) hordered⟩
  exact eq_of_rank_eq h (hordered.mem_iff.1 ha) hb (Rank.before_antisymm hab hba)

/-! ### Texts of layers -/

private theorem isAlphanum_eq (c : Char) : c.isAlphanum = isLetterOrDigit c := by
  have hupper : c.isUpper = ('A' ≤ c && c ≤ 'Z') := Bool.decide_and _ _
  show (c.isUpper || c.isLower || c.isDigit) = _
  rw [hupper]
  rfl

private theorem toUpper_eq (c : Char) : c.toUpper = capital c := by
  have hrange : 'a' ≤ c ∧ c ≤ 'z' ↔ 97 ≤ c.toNat ∧ c.toNat ≤ 122 :=
    and_congr UInt32.le_iff_toNat_le UInt32.le_iff_toNat_le
  unfold capital
  simp only [hrange]
  split
  · rename_i h
    have hvalid : (c.toNat - 32).isValidChar := .inl (by omega)
    have hcapital : (Char.ofNat (c.toNat - 32)).toNat = c.toNat - 32 := by
      rw [Char.ofNat, dif_pos hvalid]
      rfl
    rw [← Char.toNat_inj, hcapital, Text.toNat_toUpper h]
  · rename_i h
    exact Text.toUpper_of_not_lower h

private theorem variableNames_eq (key : String) :
    variableNames key = [key, Source.sanitize key, Source.capitals (Source.sanitize key)] := by
  simp only [variableNames, Source.sanitize, Source.capitals, isAlphanum_eq, funext toUpper_eq, String.toList_ofList]

private theorem get?_environment (vars : Entries) (key : String) :
    (Source.ofEnvironment vars).get? key = environmentText? vars key := by
  rw [environmentText?, variableNames_eq, List.findSome?_cons, List.findSome?_cons, List.findSome?_cons,
    List.findSome?_nil]
  show (vars.get? key).or ((vars.get? (Source.sanitize key)).or (vars.get? (Source.capitals (Source.sanitize key)))) = _
  cases vars.get? key with
  | some text => rfl
  | none =>
    cases vars.get? (Source.sanitize key) with
    | some text => rfl
    | none => cases vars.get? (Source.capitals (Source.sanitize key)) <;> rfl

/-- A file that cannot be loaded defines nothing. -/
private theorem get?_fileSource (read : FileReader) (path key : String) :
    (fileSource read path).get? key = textInFile? read path key := by
  unfold fileSource Source.ofFile textInFile?
  cases ConfigFile.load read path with
  | ok entries => rfl
  | error e => rfl

private theorem findSome?_defineSources (o : LayerOptions) (key : String) :
    ((defineSources o.layers.defines).findSome? fun s => s.get? key) = lastDefinition? o.definitions key := by
  unfold defineSources
  rw [← get?_definitions]
  split
  · rename_i hempty
    rw [List.isEmpty_iff.1 hempty]
    rfl
  · rw [List.findSome?_singleton]
    rfl

private theorem findSome?_environmentSources (vars : Entries) (environment : Bool) (key : String) :
    ((Store.environmentSources vars environment).findSome? fun s => s.get? key) =
      if environment then environmentText? vars key else none := by
  cases environment with
  | false => rfl
  | true => exact (List.findSome?_singleton ..).trans (get?_environment vars key)

private theorem findSome?_files (read : FileReader) (paths : List String) (key : String) :
    (((ascending paths).map (fileSource read)).findSome? fun s => s.get? key) =
      firstInFiles? read paths key := by
  rw [List.findSome?_map, firstInFiles?]
  congr 1
  funext path
  exact get?_fileSource read path key

/-- The value of a key is the text of the first layer that defines it. -/
theorem find_of_sources {s : Setup} (h : s.sources = ordered w o) (key : String) : s.find key = o.text? w key := by
  have hfind : s.find key = s.sources.findSome? fun s => s.get? key := SourceSet.map_fst_lookup? _ key
  rw [hfind, h, ordered, List.findSome?_append, List.findSome?_append, findSome?_defineSources,
    findSome?_environmentSources, findSome?_files, LayerOptions.text?]

end Setup

end LayeredConfig.CommandLine
