import LayeredConfig.CommandLine
import LayeredConfig.Proofs.Accessor.Direct
import LayeredConfig.Proofs.CommandLine.Layers
import LayeredConfig.Proofs.CommandLine.Spelling

/-!
# The text of a key, as its layer holds it

Asking for the text of a key prints that of the first layer that defines the key.  If that is empty, or there is no
such layer, it prints the default, and fails when none is given (`run_rawText`).  Definitions and files before the name
of the command are no layers when there are others behind it: the call does what it does without them
(`run_eq_without`).
-/

namespace LayeredConfig.CommandLine

/-- The layers that the options before and behind the name of a command ask for.  Where definitions stand behind the
name, those before it are lost, and so it is with files. -/
def LayerOptions.of (outer inner : Given) : LayerOptions :=
  { definitions := Invocation.closest outer inner .define
    environment := !(outer.has .noEnvironment || inner.has .noEnvironment)
    paths := Invocation.closest outer inner .file }

/-- Arguments that ask for the text of a key: without a suffix, and not as a document. -/
structure AsksForText (outer inner : Given) (key : String) (arguments : List String) : Prop where
  asks : AsksFor outer inner key arguments
  outerAccepted : outer.Accepted Invocation.outerScope
  innerAccepted : inner.Accepted (Invocation.innerScope .get)
  raw : inner.has .raw = true
  noSuffix : inner.has .suffix = false
  noDocument : inner.has .json = false

variable {outer inner : Given} {key : String} {arguments : List String} {w : World}

/-! ### Layers of a call -/

private theorem definition?_eq {definition : String} (h : (definition? definition).isSome) :
    definition? definition = some (definedKey definition, definedText definition) := by
  unfold definition? definedKey definedText at *
  dsimp only at *
  split at h
  · cases h
  · rename_i hdrop
    rw [hdrop]
    split at h
    · cases h
    · rename_i hkey
      rw [if_neg hkey]
      rfl

private theorem Given.accepts_of_mem_values {scope : List Switch} {g : Given} (h : g.Accepted scope) {s : Switch}
    {value : String} (hvalue : value ∈ g.values s) : s.accepts value = true := by
  obtain ⟨p, hp, rfl⟩ := List.mem_map.1 hvalue
  obtain ⟨hmem, hs⟩ := List.mem_filter.1 hp
  obtain rfl : p.1 = s := by simpa using hs
  exact h.accepts p hmem

private theorem AsksForText.layersOf_eq (h : AsksForText outer inner key arguments) :
    Invocation.layersOf outer inner = (LayerOptions.of outer inner).layers := by
  have hdefinitions : ∀ definition ∈ Invocation.closest outer inner .define, (definition? definition).isSome := by
    intro definition hdefinition
    unfold Invocation.closest at hdefinition
    split at hdefinition
    · exact Given.accepts_of_mem_values h.innerAccepted hdefinition
    · exact Given.accepts_of_mem_values h.outerAccepted hdefinition
  have hall := List.filterMap_congr fun definition hdefinition => definition?_eq (hdefinitions definition hdefinition)
  rw [Invocation.layersOf, hall, List.filterMap_eq_map']
  rfl

/-! ### The answer -/

/-- Without a suffix, only the text of the key itself counts. -/
private theorem resolveRaw_eq (r : GetRequest) (s : Setup) (hsuffixes : r.suffixes = []) :
    r.resolveRaw s =
      match ((s.find r.key).filter fun text => !text.isEmpty).or r.default with
      | some text => .ok ⟨some r.key, [text]⟩
      | none => .error (.notFound r.key) := by
  have hsteps : r.rawSteps = [.expands false] := by
    rw [GetRequest.rawSteps, hsuffixes]
    rfl
  have hbuilt : (Accessor.build s.view s.engine.registry r.key r.rawSteps).outcome =
      .ok (.mk (.direct r.key .text .scalar) .nil .fresh) := by
    rw [hsteps]
    rfl
  have houtcome (registry : Registry) :
      ((Accessor.mk (.direct r.key .text .scalar) .nil .fresh).rawValue s.view registry).outcome =
        .ok (s.view.present? r.key) := by
    rw [← Accessor.raw_lookup_direct s.view r.key .text .scalar]
    rfl
  have hkey (registry : Registry) :
      ((Accessor.mk (.direct r.key .text .scalar) .nil .fresh).rawValue s.view registry).accessor.memory.resolvedKey =
        some r.key :=
    congrArg some (Accessor.key_lookup_direct s.view r.key .text .scalar)
  have hpresent : s.view.present? r.key = (s.find r.key).filter fun text => !text.isEmpty := rfl
  rw [GetRequest.resolveRaw]
  simp only [hbuilt, bind, Except.bind, houtcome, hkey, hpresent]
  cases ((s.find r.key).filter fun text => !text.isEmpty).or r.default with
  | none => rfl
  | some text => rfl

/-- A text that is found is printed on a line of its own. -/
private theorem run_getRaw {r : GetRequest} (hraw : r.raw = true) (hsuffixes : r.suffixes = []) (hjson : r.json = false)
    (s : Setup) :
    r.run s =
      match ((s.find r.key).filter fun text => !text.isEmpty).or r.default with
      | some text => .ok (text ++ "\n")
      | none => .error (.keyNotFound r.key) := by
  rw [GetRequest.run, GetRequest.resolve, if_pos hraw, resolveRaw_eq r s hsuffixes]
  cases ((s.find r.key).filter fun text => !text.isEmpty).or r.default with
  | none => rfl
  | some text => simp [hjson]

/-- Asking for the text of a key prints the text of the first layer that defines it: of the last definition among those
behind the name of the command, or among those before it if there are none behind; of the environment; or of the files,
with the same choice between the two sides, in ascending order of their paths.  If that is empty, or no layer defines
the key, the default is printed, and without a default nothing is printed and the call fails. -/
theorem run_rawText (h : AsksForText outer inner key arguments)
    (hunranked : (LayerOptions.of outer inner).IsUnranked w) :
    run w arguments =
      match (((LayerOptions.of outer inner).text? w key).filter fun text => !text.isEmpty).or
          (inner.value? .default) with
      | some text => ⟨0, text ++ "\n", ""⟩
      | none => ⟨1, "", (Problem.keyNotFound key).render w.palette⟩ := by
  obtain ⟨s, hs, hsources⟩ := Setup.exists_ofLayers hunranked
  have hread := Invocation.read_of_asksFor h.asks h.outerAccepted h.innerAccepted
  have hrun : (inner.requestFor key).run s =
      match (((LayerOptions.of outer inner).text? w key).filter fun text => !text.isEmpty).or
          (inner.value? .default) with
      | some text => .ok (text ++ "\n")
      | none => .error (.keyNotFound key) := by
    rw [← Setup.find_of_sources hsources key]
    exact run_getRaw h.raw (Given.has_eq_false_iff.1 h.noSuffix) h.noDocument s
  rw [run, hread]
  simp only [Invocation.run, h.layersOf_eq, hs, Except.bind, Command.run]
  rw [hrun]
  cases (((LayerOptions.of outer inner).text? w key).filter fun text => !text.isEmpty).or
    (inner.value? .default) with
  | none => rfl
  | some text => rfl

/-- Two files that define the size of a pool, and the variables `vars`. -/
def poolWorld (vars : List (String × String)) : World where
  read path :=
    if path = "a.properties" then .ok "pool.size=4"
    else if path = "b.properties" then .ok "pool.size=8"
    else .error .missing
  vars := Entries.ofPairs vars
  palette := .plain

/-- The options before the name of the command: two files in descending order, and a definition of another key. -/
def poolOuter : Given := [(.file, "b.properties"), (.file, "a.properties"), (.define, "mode = fast")]

/-- The options behind the name of the command. -/
def poolInner : Given := [(.raw, ""), (.default, "6")]

/-- Arguments that ask for the size of the pool. -/
def poolArguments : List String :=
  ["--file", "b.properties", "-fa.properties", "-D", "mode = fast", "get", "--raw", "pool.size", "--default=6"]

private theorem asksForText_pool : AsksForText poolOuter poolInner "pool.size" poolArguments := by
  have houter : Spelled poolOuter ["--file", "b.properties", "-fa.properties", "-D", "mode = fast"] := by
    have hspelled : Spelled poolOuter _ :=
      .cons (@Spelling.apart .file (.long "file") "b.properties" (by decide) rfl rfl)
        (.cons (@Spelling.attached .file 'f' "a.properties" (by decide) rfl rfl)
          (.cons (@Spelling.apart .define (.short 'D') "mode = fast" (by decide) rfl rfl) .nil))
    simpa [SwitchName.text] using hspelled
  have hraw : Spelled [(.raw, "")] ["--raw"] := by
    have hspelled := Spelled.cons (@Spelling.flag .raw (.long "raw") (by decide) rfl) .nil
    simpa [SwitchName.text] using hspelled
  have hdefault : Spelled [(.default, "6")] ["--default=6"] := by
    have hspelled := Spelled.cons (@Spelling.joined .default (.long "default") "6" (by decide) rfl) .nil
    simpa [SwitchName.text] using hspelled
  exact ⟨.among houter rfl hraw hdefault rfl (.inl rfl), by decide +kernel, by decide +kernel, rfl, rfl, rfl⟩

/-- The first file answers, unless an empty variable hides it. -/
theorem run_rawText_pool :
    run (poolWorld []) poolArguments = ⟨0, "4\n", ""⟩ ∧
      run (poolWorld [("POOL_SIZE", "")]) poolArguments = ⟨0, "6\n", ""⟩ := by
  have hfirst (vars : List (String × String)) :
      firstInFiles? (poolWorld vars).read (LayerOptions.of poolOuter poolInner).paths "pool.size" = some "4" := by
    have hpaths : ascending (LayerOptions.of poolOuter poolInner).paths = ["a.properties", "b.properties"] := by
      show ascending ["b.properties", "a.properties"] = _
      simp [ascending_eq, List.mergeSort]
    have hload : textInFile? (poolWorld vars).read "a.properties" "pool.size" = some "4" := by
      show textInFile? (poolWorld []).read "a.properties" "pool.size" = some "4"
      decide +kernel
    rw [firstInFiles?, hpaths, List.findSome?_cons, hload]
  constructor
  · rw [run_rawText asksForText_pool (by decide +kernel), LayerOptions.text?, hfirst]
    decide +kernel
  · rw [run_rawText asksForText_pool (by decide +kernel), LayerOptions.text?, hfirst]
    decide +kernel

/-! ### Options on both sides of the name -/

/-- The options without all occurrences of one of them. -/
def Given.without (g : Given) (s : Switch) : Given := g.filter fun p => p.1 ≠ s

private theorem Given.values_without (g : Given) {s t : Switch} (h : t ≠ s) : (g.without s).values t = g.values t := by
  rw [values, without, List.filter_filter, values]
  congr 1
  refine List.filter_congr fun p _ => ?_
  by_cases hp : p.1 = t
  · simp [hp, h]
  · simp [hp]

private theorem Given.has_without (g : Given) {s t : Switch} (h : t ≠ s) : (g.without s).has t = g.has t := by
  have hiff : (g.without s).has t = false ↔ g.has t = false := by
    rw [has_eq_false_iff, has_eq_false_iff, values_without g h]
  simpa using hiff

/-- An option behind the name of a command takes the place of all its occurrences before the name. -/
private theorem Invocation.layersOf_without {s : Switch} (hs : inner.has s = true) (outer : Given) :
    layersOf (outer.without s) inner = layersOf outer inner := by
  have hclosest (t : Switch) : closest (outer.without s) inner t = closest outer inner t := by
    by_cases ht : t = s
    · rw [closest, closest, ht, if_pos hs, if_pos hs]
    · rw [closest, closest, Given.values_without outer ht]
  have henvironment : ((outer.without s).has .noEnvironment || inner.has .noEnvironment) =
      (outer.has .noEnvironment || inner.has .noEnvironment) := by
    by_cases ht : Switch.noEnvironment = s
    · rw [ht, hs, Bool.or_true, Bool.or_true]
    · rw [Given.has_without outer ht]
  rw [layersOf, layersOf, hclosest, hclosest, henvironment]

/-- Definitions before the name of the command are lost when there are some behind it, and so are files: the call does
what the one without them does. -/
theorem run_eq_without {s : Switch} (hs : inner.has s = true) (h : AsksForText outer inner key arguments)
    {arguments' : List String} (h' : AsksForText (outer.without s) inner key arguments') :
    run w arguments = run w arguments' := by
  rw [run, run, Invocation.read_of_asksFor h.asks h.outerAccepted h.innerAccepted,
    Invocation.read_of_asksFor h'.asks h'.outerAccepted h'.innerAccepted, Invocation.layersOf_without hs]

end LayeredConfig.CommandLine
