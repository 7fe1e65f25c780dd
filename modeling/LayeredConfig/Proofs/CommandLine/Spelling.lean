import LayeredConfig.CommandLine.Invocation
import Mathlib.Data.List.TakeWhile

/-!
# Spelling options

An option and its value can be written as arguments in several ways (`Spelling`), and whatever way is chosen, reading
the arguments gives the option back (`Given.read_spelled`).  So do whole calls that ask for a key, where the options
may stand on both sides of the name of the command and of the key (`Invocation.read_of_asksFor`).
-/

namespace LayeredConfig.CommandLine

/-- The name of an option as it is written. -/
def SwitchName.text : SwitchName → String
  | .long text => "--" ++ text
  | .short letter => "-" ++ letter.toString

/-- A name that can be told from its value and from the separator. -/
def SwitchName.IsPlain : SwitchName → Prop
  | .long text => text ≠ "" ∧ '=' ∉ text.toList
  | .short letter => letter ≠ '-'

/-- The ways to write one option with its value as arguments.  A value may follow as an argument of its own if that is
a word, or after an equals sign, or directly behind a letter if it does not start with an equals sign. -/
inductive Spelling : Switch → String → List String → Prop
  | flag {s : Switch} {name : SwitchName} (hname : name ∈ s.names) (hflag : s.takesValue = false) :
      Spelling s "" [name.text]
  | apart {s : Switch} {name : SwitchName} {value : String} (hname : name ∈ s.names) (htakes : s.takesValue = true)
      (hword : Argument.of value = .word value) : Spelling s value [name.text, value]
  | joined {s : Switch} {name : SwitchName} {value : String} (hname : name ∈ s.names) (htakes : s.takesValue = true) :
      Spelling s value [name.text ++ "=" ++ value]
  | attached {s : Switch} {letter : Char} {value : String} (hname : .short letter ∈ s.names)
      (htakes : s.takesValue = true) (hvalue : value.toList.head?.any (· ≠ '=')) :
      Spelling s value [(SwitchName.short letter).text ++ value]

/-- The ways to write options one after the other. -/
inductive Spelled : Given → List String → Prop
  | nil : Spelled [] []
  | cons {s : Switch} {value : String} {g : Given} {as bs : List String} (hfirst : Spelling s value as)
      (hrest : Spelled g bs) : Spelled ((s, value) :: g) (as ++ bs)

/-- Options that may be given together: they belong to the scope, have acceptable values, ask for a run, and are
repeated only where that is allowed. -/
structure Given.Accepted (scope : List Switch) (g : Given) : Prop where
  scope : ∀ p ∈ g, p.1 ∈ scope
  accepts : ∀ p ∈ g, p.1.accepts p.2 = true
  runs : ∀ p ∈ g, p.1 ≠ .help ∧ p.1 ≠ .version
  once : ∀ p ∈ g, p.1.isRepeatable = false → (g.values p.1).length ≤ 1

instance (scope : List Switch) (g : Given) : Decidable (g.Accepted scope) :=
  decidable_of_iff ((∀ p ∈ g, p.1 ∈ scope) ∧ (∀ p ∈ g, p.1.accepts p.2 = true) ∧
      (∀ p ∈ g, p.1 ≠ .help ∧ p.1 ≠ .version) ∧
      ∀ p ∈ g, p.1.isRepeatable = false → (g.values p.1).length ≤ 1)
    ⟨fun ⟨hscope, haccepts, hruns, honce⟩ => ⟨hscope, haccepts, hruns, honce⟩,
      fun ⟨hscope, haccepts, hruns, honce⟩ => ⟨hscope, haccepts, hruns, honce⟩⟩

/-! ### Single arguments -/

namespace Argument

variable {name : SwitchName} {value : String} {cs ds : List Char}

private theorem splitAtEquals_of_notMem (h : '=' ∉ cs) : splitAtEquals cs = (cs, none) := by
  have hdrop : cs.dropWhile (· ≠ '=') = [] := by
    rw [List.dropWhile_eq_nil_iff]
    intro c hc
    simpa using fun heq : c = '=' => h (heq ▸ hc)
  rw [splitAtEquals, hdrop]

/-- The first equals sign counts. -/
private theorem splitAtEquals_append (h : '=' ∉ cs) :
    splitAtEquals (cs ++ '=' :: ds) = (cs, some (String.ofList ds)) := by
  have hall : ∀ c ∈ cs, decide (c ≠ '=') = true := by
    intro c hc
    simpa using fun heq : c = '=' => h (heq ▸ hc)
  rw [splitAtEquals, List.dropWhile_append_of_pos hall, List.takeWhile_append_of_pos hall]
  simp

private theorem of_long {text : String} (h : text ≠ "") :
    Argument.of ("--" ++ text) =
      .option (.long (String.ofList (splitAtEquals text.toList).1)) (splitAtEquals text.toList).2 := by
  obtain ⟨c, cs, hcs⟩ := List.exists_cons_of_ne_nil (mt String.toList_eq_nil_iff.1 h)
  simp [Argument.of, String.toList_append, hcs]

private theorem of_short {letter : Char} (h : letter ≠ '-') (rest : String) :
    Argument.of ("-" ++ letter.toString ++ rest) = .option (.short letter) (attachedToLetter rest.toList) := by
  simp [Argument.of, String.toList_append, h]

/-- A name alone. -/
private theorem of_text (h : name.IsPlain) : Argument.of name.text = .option name none := by
  cases name with
  | long text =>
    rw [SwitchName.text, of_long h.1, splitAtEquals_of_notMem h.2, String.ofList_toList]
  | short letter =>
    have hletter := of_short h ""
    rwa [String.append_empty] at hletter

/-- A name with a value behind an equals sign. -/
private theorem of_joined (h : name.IsPlain) (value : String) :
    Argument.of (name.text ++ "=" ++ value) = .option name (some value) := by
  cases name with
  | long text =>
    have hne : text ++ "=" ++ value ≠ "" := by simp
    have hchars : (text ++ "=" ++ value).toList = text.toList ++ '=' :: value.toList := by
      simp [String.toList_append]
    have hsplit : splitAtEquals (text ++ "=" ++ value).toList = (text.toList, some value) := by
      rw [hchars, splitAtEquals_append h.2, String.ofList_toList]
    have hassoc : "--" ++ text ++ "=" ++ value = "--" ++ (text ++ "=" ++ value) := by
      simp only [String.append_assoc]
    rw [SwitchName.text, hassoc, of_long hne, hsplit, String.ofList_toList]
  | short letter =>
    rw [SwitchName.text, String.append_assoc, of_short h]
    simp [attachedToLetter, String.toList_append]

/-- A letter with a value right behind it. -/
private theorem of_attached {letter : Char} (h : (SwitchName.short letter).IsPlain)
    (hvalue : value.toList.head?.any (· ≠ '=') = true) :
    Argument.of ((SwitchName.short letter).text ++ value) = .option (.short letter) (some value) := by
  rw [SwitchName.text, of_short h]
  cases hcs : value.toList with
  | nil => simp [hcs] at hvalue
  | cons c cs =>
    have hc : c ≠ '=' := by simpa [hcs] using hvalue
    have hletter : attachedToLetter (c :: cs) = some (String.ofList (c :: cs)) := by
      unfold attachedToLetter
      split
      · contradiction
      · simp_all
      · rfl
    rw [hletter, ← hcs, String.ofList_toList]

end Argument

namespace Switch

variable {s t : Switch} {name : SwitchName}

private theorem isPlain_of_mem_names (h : name ∈ s.names) : name.IsPlain := by
  revert name
  cases s <;> simp [names, SwitchName.IsPlain]

/-- All options. -/
def all : List Switch :=
  [file, noEnvironment, define, type, default, suffix, raw, list, start, values, json, help, version]

/-- A name leads back to its option. -/
private theorem find?_all (h : name ∈ s.names) : all.find? (fun s => s.names.contains name) = some s := by
  revert name
  cases s <;> decide

/-- No two options share a name. -/
private theorem eq_of_mem_names (hs : name ∈ s.names) (ht : name ∈ t.names) : s = t :=
  Option.some.inj ((find?_all hs).symm.trans (find?_all ht))

private theorem find?_scope {scope : List Switch} (hs : s ∈ scope) (hname : name ∈ s.names) :
    scope.find? (fun s => s.names.contains name) = some s := by
  cases hfind : scope.find? fun s => s.names.contains name with
  | none =>
    have := List.find?_eq_none.1 hfind s hs
    simp [hname] at this
  | some t =>
    have ht := List.find?_some hfind
    rw [List.contains_iff_mem] at ht
    rw [eq_of_mem_names hname ht]

end Switch

namespace Given

variable {scope : List Switch} {g g' : Given} {s : Switch} {value : String} {as bs rest : List String}

private theorem length_values_append (g g' : Given) (s : Switch) :
    ((g ++ g').values s).length = (g.values s).length + (g'.values s).length := by
  simp [values]

theorem has_eq_false_iff : g.has s = false ↔ g.values s = [] := by
  simp [has, values, List.filter_eq_nil_iff]

/-- What was given first is acceptable without what follows. -/
private theorem Accepted.left (h : (g ++ g').Accepted scope) : g.Accepted scope := by
  refine ⟨fun p hp => h.scope p (List.mem_append_left g' hp), fun p hp => h.accepts p (List.mem_append_left g' hp),
    fun p hp => h.runs p (List.mem_append_left g' hp), fun p hp hs => ?_⟩
  have honce := h.once p (List.mem_append_left g' hp) hs
  rw [length_values_append] at honce
  omega

/-- Adding an option that may follow those before it. -/
private theorem add_of_accepted (h : (g ++ [(s, value)]).Accepted scope) (argument : String) :
    g.add argument s value = .ok (g ++ [(s, value)]) := by
  have hmem : (s, value) ∈ g ++ [(s, value)] := by simp
  obtain ⟨hhelp, hversion⟩ := h.runs _ hmem
  have haccepts : s.accepts value = true := h.accepts _ hmem
  have hrepeated : (!s.isRepeatable && g.has s) = false := by
    cases hs : s.isRepeatable with
    | true => rfl
    | false =>
      have honce : ((g ++ [(s, value)]).values s).length ≤ 1 := h.once (s, value) hmem hs
      rw [length_values_append] at honce
      have hself : (values [(s, value)] s).length = 1 := by simp [values]
      have hnil : g.values s = [] := List.eq_nil_of_length_eq_zero (by omega)
      rw [has_eq_false_iff.2 hnil]
      rfl
  cases s <;> simp_all [add]

/-- An argument with a value attached to the name. -/
private theorem read_attached {argument : String} {name : SwitchName}
    (hof : Argument.of argument = .option name (some value)) (hname : name ∈ s.names) (htakes : s.takesValue = true)
    (haccepted : (g ++ [(s, value)]).Accepted scope) :
    read scope g (argument :: rest) = read scope (g ++ [(s, value)]) rest := by
  have hscope : s ∈ scope := haccepted.scope (s, value) (by simp)
  rw [read, hof]
  simp only [Switch.find?_scope hscope hname, htakes, add_of_accepted haccepted]
  rfl

/-- One option, however it is written, is read and added. -/
private theorem read_spelling (h : Spelling s value as) (haccepted : (g ++ [(s, value)]).Accepted scope)
    (rest : List String) : read scope g (as ++ rest) = read scope (g ++ [(s, value)]) rest := by
  have hscope : s ∈ scope := haccepted.scope (s, value) (by simp)
  cases h with
  | @flag name hname hflag =>
    rw [List.singleton_append, read, Argument.of_text (Switch.isPlain_of_mem_names hname)]
    simp only [Switch.find?_scope hscope hname, hflag, add_of_accepted haccepted]
    cases name <;> rfl
  | apart hname htakes hword =>
    rw [List.cons_append, List.singleton_append, read, Argument.of_text (Switch.isPlain_of_mem_names hname)]
    simp only [Switch.find?_scope hscope hname, htakes, hword, add_of_accepted haccepted]
    rfl
  | joined hname htakes =>
    exact read_attached (Argument.of_joined (Switch.isPlain_of_mem_names hname) value) hname htakes haccepted
  | attached hname htakes hvalue =>
    exact read_attached (Argument.of_attached (Switch.isPlain_of_mem_names hname) hvalue) hname htakes haccepted

/-- Options are read one after the other, in whatever way each of them is written. -/
theorem read_spelled (h : Spelled g' as) (haccepted : (g ++ g').Accepted scope) (rest : List String) :
    read scope g (as ++ rest) = read scope (g ++ g') rest := by
  induction h generalizing g with
  | nil => rw [List.append_nil, List.nil_append]
  | @cons s value g' as bs hfirst hrest ih =>
    rw [← List.singleton_append, ← List.append_assoc] at haccepted ⊢
    rw [List.append_assoc, read_spelling hfirst haccepted.left, ih haccepted]

/-- Reading stops at a word and at the separator. -/
private theorem read_stop {argument : String} (h : Argument.of argument = .word argument ∨ argument = "--") :
    read scope g (argument :: rest) = .ok (g, argument :: rest) := by
  rw [read]
  rcases h with h | rfl
  · rw [h]
  · rfl

end Given

/-! ### Whole calls -/

/-- The request for a key that options make. -/
def Given.requestFor (g : Given) (key : String) : GetRequest :=
  { key, type := Invocation.typeOf g, default := g.value? .default, suffixes := g.values .suffix, raw := g.has .raw,
    list := g.has .list, json := g.has .json }

/-- Arguments that ask for the value of a key, with the options `outer` before the name of the command and `inner`
behind it.  The key is a word among the options or any text behind the separator. -/
inductive AsksFor (outer inner : Given) (key : String) : List String → Prop
  | among {before after : Given} {as bs cs tail : List String} (houter : Spelled outer as)
      (hinner : inner = before ++ after) (hbefore : Spelled before bs) (hafter : Spelled after cs)
      (hword : Argument.of key = .word key) (htail : tail = [] ∨ tail = ["--"]) :
      AsksFor outer inner key (as ++ "get" :: (bs ++ key :: (cs ++ tail)))
  | behind {as bs : List String} (houter : Spelled outer as) (hinner : Spelled inner bs) :
      AsksFor outer inner key (as ++ "get" :: (bs ++ ["--", key]))

namespace Invocation

variable {outer inner before after : Given} {key : String} {scope : List Switch}
  {arguments as bs cs tail : List String}

private theorem readKey_among (hbefore : Spelled before bs) (hafter : Spelled after cs)
    (haccepted : (before ++ after).Accepted scope) (hword : Argument.of key = .word key)
    (htail : tail = [] ∨ tail = ["--"]) :
    readKey scope (bs ++ key :: (cs ++ tail)) = .ok (before ++ after, key) := by
  have hseparator : key ≠ "--" := by
    rintro rfl
    cases hword
  have hfirst : Given.read scope [] (bs ++ key :: (cs ++ tail)) = .ok (before, key :: (cs ++ tail)) := by
    rw [Given.read_spelled (g := []) hbefore haccepted.left, Given.read_stop (.inl hword)]
    rfl
  have hrest : Given.read scope before (cs ++ tail) = .ok (before ++ after, tail) := by
    rw [Given.read_spelled hafter haccepted]
    rcases htail with rfl | rfl
    · rw [Given.read]
    · exact Given.read_stop (.inr rfl)
  have hfinish : finish tail = .ok () := by
    rcases htail with rfl | rfl <;> rfl
  rw [readKey, hfirst]
  simp only [bind, Except.bind]
  simp [hseparator, hrest, hfinish, pure, Except.pure]

private theorem readKey_behind (h : Spelled inner bs) (haccepted : inner.Accepted scope) :
    readKey scope (bs ++ ["--", key]) = .ok (inner, key) := by
  have hread : Given.read scope [] (bs ++ ["--", key]) = .ok (inner, ["--", key]) := by
    rw [Given.read_spelled (g := []) h haccepted]
    exact Given.read_stop (.inr rfl)
  rw [readKey, hread]
  rfl

private theorem readCommand_of_readKey (h : readKey (innerScope .get) arguments = .ok (inner, key)) :
    readCommand .get arguments = .ok (inner, .get (inner.requestFor key)) := by
  simp only [readCommand, bind, Except.bind]
  rw [h]
  rfl

/-- The arguments are understood as the request for the key on the layers that the options ask for. -/
theorem read_of_asksFor (h : AsksFor outer inner key arguments) (houter : outer.Accepted outerScope)
    (hinner : inner.Accepted (innerScope .get)) :
    read arguments = .ok ⟨layersOf outer inner, .get (inner.requestFor key)⟩ := by
  have hget {as rest : List String} (has : Spelled outer as)
      (hkey : readKey (innerScope .get) rest = .ok (inner, key)) :
      read (as ++ "get" :: rest) = .ok ⟨layersOf outer inner, .get (inner.requestFor key)⟩ := by
    have hread : Given.read outerScope [] (as ++ "get" :: rest) = .ok (outer, "get" :: rest) := by
      rw [Given.read_spelled (g := []) has houter]
      exact Given.read_stop (.inl rfl)
    have hnamed : CommandKind.named.lookup "get" = some .get := rfl
    rw [read, hread]
    simp only [bind, Except.bind, hnamed]
    rw [readCommand_of_readKey hkey]
    rfl
  cases h with
  | among has heq hbefore hafter hword htail =>
    subst heq
    exact hget has (readKey_among hbefore hafter hinner hword htail)
  | behind has hbehind => exact hget has (readKey_behind hbehind hinner)

end Invocation

end LayeredConfig.CommandLine
