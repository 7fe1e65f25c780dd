import LayeredConfig.Proofs.Session.Markers
import LayeredConfig.Proofs.Session.Merging
import LayeredConfig.Proofs.Store.Reloading

/-!
# Files that change while a session runs

Files are written, deleted, replaced and broken while sources and engines are reloaded.  A source of a file holds what
the loads of its file have left behind, and nothing else happens to it: a load that fails leaves it as it is, or empties
it if the file is gone.  It keeps its name, its ordinal and its place in every engine, also when the file says otherwise
(`file_sources_after`).
-/

namespace LayeredConfig.Session

/-- Whether a step sets or removes a value in a source itself, which sources of files do not offer. -/
def Edits (s : Session) (id : SourceId) : Step → Prop
  | .set name _ _ | .remove name _ => s.sourceNames.lookup name = some id
  | _ => False

/-- No step edits the source. -/
def Unedited (id : SourceId) : Session → List Step → Prop
  | _, [] => True
  | s, taken :: rest => ¬ s.Edits id taken ∧ Unedited id (s.step taken).2 rest

/-- The engine that a name stands for. -/
def engineNamed? (s : Session) (name : String) : Option Engine := (s.engineNames.lookup name).bind s.store.engine?

/-- How often a step reads a source again. -/
def rereads (s : Session) (id : SourceId) : Step → Nat
  | .sourceReload name => if s.sourceNames.lookup name = some id then 1 else 0
  | .reload name =>
    match s.engineNamed? name with
    | some e => e.sources.count id
    | none => 0
  | _ => 0

/-- How often a step loads the file of a source: once to make the source, and whenever it is read again. -/
def loadCount (s : Session) (id : SourceId) (taken : Step) : Nat :=
  if (s.store.source? id).isSome then s.rereads id taken
  else if ((s.step taken).2.store.source? id).isSome then 1 else 0

/-- What the loads of a source's file give, in their order. -/
def loads (id : SourceId) (path : String) : Session → List Step → List (Except FileError Entries)
  | _, [] => []
  | s, taken :: rest =>
    List.replicate (s.loadCount id taken) (ConfigFile.load s.store.files.read path) ++
      loads id path (s.step taken).2 rest

variable {s : Session} {taken : Step} {st : Store} {names : List (String × SourceId)} {id : SourceId}
  {source : Source} {path : String} {F : EngineId} {e : Engine}

/-! ### One step -/

/-- The steps that read sources again. -/
def Step.isReload : Step → Bool
  | .sourceReload _ | .reload _ => true
  | _ => false

/-- A step that reads nothing again leaves a source as it is. -/
private theorem source?_effect (heffect : Effect s taken st names) (hreload : taken.isReload = false)
    (hid : id < s.store.next) (hedits : ¬ s.Edits id taken) : st.source? id = s.store.source? id := by
  cases heffect with
  | nothing | world | registry | register => rfl
  | source hsource => exact (Store.source?_addSource _ _ id).trans (if_neg (Nat.ne_of_lt hid))
  | set hx hj =>
    refine Store.source?_setValue_of_ne ?_ _ _
    rintro rfl
    exact hedits hx
  | remove hx hj =>
    refine Store.source?_removeKey_of_ne ?_ _
    rintro rfl
    exact hedits hx
  | report hx hj => exact Store.source?_report _ _ id
  | build hbuild | defaultEngine _ hbuild =>
    rcases Store.source?_build hbuild id with hkept | ⟨hnext, -⟩
    · exact hkept
    · exact absurd hnext (Nat.ne_of_lt hid)
  | addSources hG he => exact Store.source?_addSources _ _ _ id
  | externalChange hG he => exact Store.source?_reportTo _ _ id
  | close hG he | releaseDefault hG he => exact Store.source?_close _ _ _ id
  | sourceReload | reload => cases hreload

private theorem source?_perform_sourceReload (s : Session) (name : String) (id : SourceId) :
    (perform s (.sourceReload name)).session.store.source? id =
      (s.store.source? id).map (Source.reload s.store.files.read s.store.vars)^[s.rereads id (.sourceReload name)] := by
  rw [perform, withSource, rereads]
  cases s.sourceNames.lookup name with
  | none => exact Option.map_id'.symm
  | some x =>
    dsimp only
    by_cases hx : id = x
    · rw [hx, if_pos rfl]
      cases hj : s.store.joined? x with
      | none =>
        show s.store.source? x = _
        rw [Store.source?, hj]
        rfl
      | some j => exact (Store.source?_reloadSource ⟨s.store, []⟩ x x).trans (if_pos rfl)
    · rw [if_neg fun heq => hx (Option.some.inj heq).symm]
      cases s.store.joined? x with
      | none => exact Option.map_id'.symm
      | some j =>
        exact ((Store.source?_reloadSource ⟨s.store, []⟩ x id).trans (if_neg hx)).trans Option.map_id'.symm

private theorem source?_perform_reload (s : Session) (name : String) (id : SourceId) :
    (perform s (.reload name)).session.store.source? id =
      (s.store.source? id).map (Source.reload s.store.files.read s.store.vars)^[s.rereads id (.reload name)] := by
  rw [perform, withEngine, rereads, engineNamed?]
  cases s.engineNames.lookup name with
  | none => exact Option.map_id'.symm
  | some G =>
    rw [Option.bind_some]
    dsimp only
    cases s.store.engine? G with
    | none => exact Option.map_id'.symm
    | some e => exact Store.source?_reload s.store G e id

/-- A source that is there is read again as often as the step says, and else stays as it is. -/
private theorem source?_step (hid : id < s.store.next) (hedits : ¬ s.Edits id taken) :
    (s.step taken).2.store.source? id =
      (s.store.source? id).map (Source.reload s.store.files.read s.store.vars)^[s.rereads id taken] := by
  cases hreload : taken.isReload with
  | true =>
    cases taken with
    | sourceReload name => exact source?_perform_sourceReload s name id
    | reload name => exact source?_perform_reload s name id
    | _ => cases hreload
  | false =>
    have hnone : s.rereads id taken = 0 := by
      cases taken with
      | sourceReload | reload => cases hreload
      | _ => rfl
    rw [hnone]
    exact (source?_effect (shows_perform s taken) hreload hid hedits).trans Option.map_id'.symm

/-- Making the source of a file loads the file once. -/
private theorem made_of_makeSource {spec : SourceSpec} (h : makeSource st spec = .ok source)
    (hfile : source.backing = .file path) :
    source.name = path ∧ source.entries = ConfigFile.left [ConfigFile.load st.files.read path] := by
  cases spec with
  | map | environment | script =>
    obtain rfl := Except.ok.inj h
    cases hfile
  | file p ordinal =>
    obtain rfl := Except.ok.inj h
    obtain ⟨hbacking, hname, hentries⟩ := Source.ofFile_eq_left st.files.read p ordinal
    obtain rfl := Backing.file.inj (hbacking.symm.trans hfile)
    exact ⟨hname, hentries⟩
  | loadedFile p =>
    rw [makeSource, Source.load] at h
    cases hload : ConfigFile.load st.files.read p with
    | error e =>
      rw [hload] at h
      cases h
    | ok entries =>
      rw [hload] at h
      obtain rfl := Except.ok.inj h
      obtain rfl := Backing.file.inj hfile
      rw [hload]
      exact ⟨rfl, rfl⟩

private theorem made_of_effect (heffect : Effect s taken st names) (hnone : s.store.source? id = none)
    (hsource : st.source? id = some source) (hfile : source.backing = .file path) :
    source.name = path ∧ source.entries = ConfigFile.left [ConfigFile.load s.store.files.read path] := by
  have hkept (heq : st.source? id = s.store.source? id) : False := by
    rw [heq, hnone] at hsource
    cases hsource
  have hother {x : SourceId} {j : Joined} (hj : s.store.joined? x = some j) : id ≠ x := by
    rintro rfl
    rw [Store.source?, hj] at hnone
    cases hnone
  cases heffect with
  | nothing | world | registry | register => exact (hkept rfl).elim
  | source hmade =>
    rw [Store.source?_addSource] at hsource
    split at hsource
    · obtain rfl := Option.some.inj hsource
      exact made_of_makeSource hmade hfile
    · rw [hnone] at hsource
      cases hsource
  | set hx hj => exact (hkept (Store.source?_setValue_of_ne (hother hj) _ _)).elim
  | remove hx hj => exact (hkept (Store.source?_removeKey_of_ne (hother hj) _)).elim
  | report hx hj => exact (hkept (Store.source?_report _ _ id)).elim
  | sourceReload hx hj =>
    exact (hkept ((Store.source?_reloadSource ⟨s.store, []⟩ _ id).trans (if_neg (hother hj)))).elim
  | build hbuild | defaultEngine _ hbuild =>
    rcases Store.source?_build hbuild id with heq | ⟨-, hmade⟩
    · exact (hkept heq).elim
    · obtain rfl := Option.some.inj (hmade.symm.trans hsource)
      cases hfile
  | addSources hG he => exact (hkept (Store.source?_addSources _ _ _ id)).elim
  | externalChange hG he => exact (hkept (Store.source?_reportTo _ _ id)).elim
  | reload hG he =>
    rw [Store.source?_reload, hnone] at hsource
    cases hsource
  | close hG he | releaseDefault hG he => exact (hkept (Store.source?_close _ _ _ id)).elim

/-! ### What a source holds -/

/-- A session in which a source holds what the `loads` of its file have left behind. -/
structure Loaded (id : SourceId) (path : String) (loads : List (Except FileError Entries)) (s : Session) : Prop where
  absent : s.store.source? id = none → loads = []
  file : ∀ source, s.store.source? id = some source → source.backing = .file path →
    source.name = path ∧ source.entries = ConfigFile.left loads

variable {history : List (Except FileError Entries)} {added : List (SourceId × Rank)}

private theorem Holds.lt_of_source? (hs : s.Holds F added) (h : s.store.source? id = some source) :
    id < s.store.next := by
  obtain ⟨j, hj, -⟩ := Option.map_eq_some_iff.1 h
  exact hs.source_lt id (by rw [hj]; rfl)

private theorem Loaded.step (h : s.Loaded id path history) (hs : s.Holds F added) (hedits : ¬ s.Edits id taken) :
    (s.step taken).2.Loaded id path
      (history ++ List.replicate (s.loadCount id taken) (ConfigFile.load s.store.files.read path)) := by
  cases hbefore : s.store.source? id with
  | some source =>
    have hafter := source?_step (hs.lt_of_source? hbefore) hedits
    rw [hbefore, Option.map_some] at hafter
    have hcount : s.loadCount id taken = s.rereads id taken := by
      rw [loadCount, hbefore]
      rfl
    refine ⟨fun hnone => ?_, fun source' hsource' hfile => ?_⟩
    · rw [hafter] at hnone
      cases hnone
    · obtain rfl := Option.some.inj (hafter.symm.trans hsource')
      have hfile' := Source.file_of_iterate_reload hfile
      obtain ⟨hname, hentries⟩ := h.file source hbefore hfile'
      rw [Source.iterate_reload_of_file hfile', hcount, ConfigFile.left_append, ← hentries]
      exact ⟨hname, rfl⟩
  | none =>
    rw [h.absent hbefore, List.nil_append]
    have hcount : s.loadCount id taken = if ((s.step taken).2.store.source? id).isSome then 1 else 0 := by
      rw [loadCount, hbefore]
      rfl
    refine ⟨fun hnone => ?_, fun source hsource hfile => ?_⟩
    · rw [hcount, hnone]
      rfl
    · rw [hcount, hsource]
      exact made_of_effect (shows_perform s taken) hbefore hsource hfile

private theorem Loaded.start (customTypes : List CustomType) (files : FileTree) (vars : Entries) :
    (start customTypes files vars).Loaded id path [] :=
  ⟨fun _ => rfl, fun _ hsource => nomatch hsource⟩

private theorem Loaded.after (h : s.Loaded id path history) (hs : s.Holds F added) {steps : List Step}
    (hedits : Unedited id s steps) : (s.after steps).Loaded id path (history ++ loads id path s steps) := by
  induction steps generalizing s history added with
  | nil => rwa [loads, List.append_nil]
  | cons taken rest ih =>
    rw [loads, ← List.append_assoc]
    exact ih (h.step hs hedits.1) (hs.step taken) hedits.2

/-! ### Reloading an engine -/

/-- A source of a file that is there changes its entries only, and only by loading the file. -/
private theorem source?_step_of_file (hs : s.Holds F added) (hsource : s.store.source? id = some source)
    (hfile : source.backing = .file path) (hedits : ¬ s.Edits id taken) :
    (s.step taken).2.store.source? id = some { source with
      entries := (List.replicate (s.rereads id taken) (ConfigFile.load s.store.files.read path)).foldl
        ConfigFile.kept source.entries } := by
  rw [source?_step (hs.lt_of_source? hsource) hedits, hsource, Option.map_some, Source.iterate_reload_of_file hfile]

private theorem source?_step_of_unusable (hs : s.Holds F added) (hsource : s.store.source? id = some source)
    (hfile : source.backing = .file path) (hedits : ¬ s.Edits id taken)
    (hload : ConfigFile.Unusable (ConfigFile.load s.store.files.read path)) :
    (s.step taken).2.store.source? id = some source := by
  have hloads : ∀ load ∈ List.replicate (s.rereads id taken) (ConfigFile.load s.store.files.read path),
      ConfigFile.Unusable load := fun load hmem => by rwa [List.eq_of_mem_replicate hmem]
  rw [source?_step_of_file hs hsource hfile hedits, ConfigFile.foldl_kept_of_unusable hloads]

private theorem source?_step_reload {name : String} {G : EngineId} (hs : s.Holds F added)
    (hG : s.engineNames.lookup name = some G) (he : s.store.engine? G = some e) (hid : id ∈ e.sources)
    (hsource : s.store.source? id = some source) (hfile : source.backing = .file path) :
    (s.step (.reload name)).2.store.source? id =
      some { source with entries := ConfigFile.kept source.entries (ConfigFile.load s.store.files.read path) } := by
  have hrereads : s.rereads id (.reload name) = e.sources.count id := by
    rw [rereads, engineNamed?, hG, Option.bind_some, he]
  obtain ⟨n, hn⟩ : ∃ n, e.sources.count id = n + 1 := Nat.exists_eq_add_one.2 (List.count_pos_iff.2 hid)
  have hedits : ¬ s.Edits id (.reload name) := fun hedits => hedits
  rw [source?_step_of_file hs hsource hfile hedits, hrereads, hn, ConfigFile.foldl_kept_replicate]

private theorem engine?_step_reload {name : String} {G : EngineId} (hG : s.engineNames.lookup name = some G)
    (he : s.store.engine? G = some e) :
    (s.step (.reload name)).2.store.engine? G = some { e with marker := s.store.nextMarker e } := by
  have hnamed : s.isAlive G := by
    rw [isAlive, List.any_eq_true.2 ⟨_, mem_of_lookup hG, beq_self_eq_true G⟩]
    rfl
  show (perform s (.reload name)).session.collect.store.engine? G = _
  rw [perform, withEngine_of_named hG he, engine?_collect_eq]
  exact (if_pos hnamed).trans (Store.engine?_reload he)

/-! ### Names, ordinals and the order of sources -/

/-- Sources keep their places in an engine, and only those that it is given come in between. -/
private theorem Holds.sources_step (h : s.Holds F added) (hF : F < s.store.next) {e' : Engine}
    (he' : (s.step taken).2.store.engine? F = some e') :
    ∃ e, s.store.engine? F = some e ∧ e.sources.Sublist e'.sources ∧
      (s.given F taken = [] → e'.sources = e.sources) := by
  have hgives := h.gives_step taken
  obtain ⟨old, hold, heq⟩ := hgives.engine e' he'
  have hordered := h.ordered_of_gives hgives hold
  rcases hold with ⟨e, he, rfl⟩ | ⟨hle, -⟩
  · refine ⟨e, he, ?_, fun hnone => ?_⟩
    · rw [heq]
      exact Store.sublist_gain hordered _
    · rw [heq, hnone]
      rfl
  · exact absurd hF (Nat.not_lt_of_le hle)

private theorem Holds.sources_after (h : s.Holds F added) (hF : F < s.store.next) {later : List Step} {e' : Engine}
    (he' : (s.after later).store.engine? F = some e') :
    ∃ e, s.store.engine? F = some e ∧ e.sources.Sublist e'.sources ∧
      (gathered F s later = [] → e'.sources = e.sources) := by
  induction later generalizing s added with
  | nil => exact ⟨e', he', .refl _, fun _ => rfl⟩
  | cons taken rest ih =>
    obtain ⟨e₁, he₁, hsub, hnone⟩ := ih (h.step taken) (Nat.lt_of_lt_of_le hF (h.gives_step taken).next_le) he'
    obtain ⟨e, he, hsub', hnone'⟩ := h.sources_step hF he₁
    refine ⟨e, he, hsub'.trans hsub, fun hgathered => ?_⟩
    obtain ⟨hgiven, hrest⟩ := List.append_eq_nil_iff.1 hgathered
    rw [hnone hrest, hnone' (List.map_eq_nil_iff.1 hgiven)]

private theorem Holds.rank?_after (h : s.Holds F added) {r : Rank} (hr : s.store.rank? id = some r)
    (later : List Step) : (s.after later).store.rank? id = some r := by
  induction later generalizing s added with
  | nil => exact hr
  | cons taken rest ih => exact ih (h.step taken) ((h.gives_step taken).ranks id r hr)

/-! ### Sources of files -/

/-- Whatever happens to the files and whatever else a session does, a source of a file that nobody edits has the name of
its path, and holds the entries of the last load of its file that succeeded, or none if there was no such load or the
file has been found missing since.  A load that fails otherwise changes nothing.  Reloading an engine does so with every
one of its files and moves its marker on once.  Names, ordinals and the order of sources stay. -/
theorem file_sources_after (customTypes : List CustomType) (files : FileTree) (vars : Entries) (steps : List Step) :
    let s₀ := start customTypes files vars
    let s := s₀.after steps
    (∀ path name, ConfigFile.load s.store.files.read path = .error (.fileNotFound name) ↔
      (∃ format, FileFormat.ofPath path = .ok format) ∧ s.store.files.read path = .error .missing ∧ name = path) ∧
    (∀ id source path, s.store.source? id = some source → source.backing = .file path → Unedited id s₀ steps →
      source.name = path ∧ ConfigFile.LeftBy (loads id path s₀ steps) source.entries) ∧
    (∀ id source path taken, s.store.source? id = some source → source.backing = .file path → ¬ s.Edits id taken →
      ConfigFile.Unusable (ConfigFile.load s.store.files.read path) →
      (s.step taken).2.store.source? id = some source) ∧
    (∀ name F e, s.engineNames.lookup name = some F → s.store.engine? F = some e →
      (s.step (.reload name)).2.store.engine? F = some { e with marker := s.store.nextMarker e } ∧
      ∀ id ∈ e.sources, ∀ source path, s.store.source? id = some source → source.backing = .file path →
        (s.step (.reload name)).2.store.source? id =
          some { source with entries := ConfigFile.kept source.entries (ConfigFile.load s.store.files.read path) }) ∧
    (∀ later id r, s.store.rank? id = some r → (s.after later).store.rank? id = some r) ∧
    (∀ later F e e', s.store.engine? F = some e → (s.after later).store.engine? F = some e' →
      e.sources.Sublist e'.sources ∧ (gathered F s later = [] → e'.sources = e.sources)) := by
  intro s₀ s
  have hholds (F : EngineId) : s.Holds F (gathered F s₀ steps) := (Holds.start customTypes files vars).after steps
  refine ⟨fun path name => ConfigFile.load_eq_fileNotFound_iff, fun id source path hsource hfile hedits => ?_,
    fun id source path taken hsource hfile hedits hload => ?_,
    fun name F e hF he => ⟨engine?_step_reload hF he, fun id hid source path hsource hfile => ?_⟩,
    fun later id r hr => ?_, fun later F e e' he he' => ?_⟩
  · have hloaded : s.Loaded id path (loads id path s₀ steps) :=
      (Loaded.start customTypes files vars).after (Holds.start (F := 0) customTypes files vars) hedits
    obtain ⟨hname, hentries⟩ := hloaded.file source hsource hfile
    rw [hentries]
    exact ⟨hname, ConfigFile.leftBy_left _⟩
  · exact source?_step_of_unusable (hholds 0) hsource hfile hedits hload
  · exact source?_step_reload (hholds F) hF he hid hsource hfile
  · exact (hholds 0).rank?_after hr later
  · obtain ⟨e₀, he₀, hsources⟩ := (hholds F).sources_after ((hholds F).engine_lt e he) he'
    obtain rfl := Option.some.inj (he.symm.trans he₀)
    exact hsources

/-- One file is replaced by a directory, and another one comes to demand a higher ordinal. -/
def rewriting : List Step :=
  [.writeFile "a.properties" (.file "key=1".toUTF8),
   .writeFile "b.properties" (.file "key=2".toUTF8),
   .source "a" (.file "a.properties" 100),
   .source "b" (.file "b.properties" 100),
   .build "engine" ["b", "a"] false [],
   .writeFile "a.properties" .directory,
   .writeFile "b.properties" (.file "config_ordinal=900\nkey=3".toUTF8)]

theorem file_sources_after_rewriting :
    let s := (start [] FileTree.empty Entries.empty).after rewriting
    let reloaded := (s.step (.reload "engine")).2
    (∃ a, s.store.source? 0 = some a ∧ a.entries = Properties.parse "key=1" ∧ reloaded.store.source? 0 = some a) ∧
    (∃ b, reloaded.store.source? 1 = some b ∧ b.entries = Properties.parse "config_ordinal=900\nkey=3" ∧
      reloaded.store.rank? 1 = some ⟨100, "b.properties"⟩) ∧
    ∃ e e', s.store.engine? 2 = some e ∧ reloaded.store.engine? 2 = some e' ∧ e'.marker = s.store.nextMarker e ∧
      e.sources.Sublist e'.sources := by
  intro s reloaded
  obtain ⟨-, hheld, hspared, hreload, hrank, horder⟩ := file_sources_after [] FileTree.empty Entries.empty rewriting
  obtain ⟨e, he⟩ : ∃ e, s.store.engine? 2 = some e := ⟨_, rfl⟩
  obtain ⟨hengine, hfiles⟩ := hreload "engine" 2 e rfl he
  refine ⟨?_, ?_, e, _, he, hengine, rfl, (horder [.reload "engine"] 2 e _ he hengine).1⟩
  -- The directory cannot be loaded, so its source stays as it is.
  · obtain ⟨a, ha, hafile⟩ : ∃ a, s.store.source? 0 = some a ∧ a.backing = .file "a.properties" := ⟨_, rfl, rfl⟩
    have hunedited : Unedited 0 (start [] FileTree.empty Entries.empty) rewriting :=
      ⟨id, id, id, id, id, id, id, trivial⟩
    have hloads : loads 0 "a.properties" (start [] FileTree.empty Entries.empty) rewriting =
        [] ++ .ok (Properties.parse "key=1") :: [] := rfl
    have hunusable : ConfigFile.Unusable (ConfigFile.load s.store.files.read "a.properties") :=
      ⟨_, rfl, fun _ => nofun⟩
    exact ⟨a, ha, (hheld 0 a "a.properties" ha hafile hunedited).2.loaded _ _ _ hloads nofun,
      hspared 0 a "a.properties" (.reload "engine") ha hafile id hunusable⟩
  · obtain ⟨b, hb, hbfile⟩ : ∃ b, s.store.source? 1 = some b ∧ b.backing = .file "b.properties" := ⟨_, rfl, rfl⟩
    have hgathered : gathered 2 (start [] FileTree.empty Entries.empty) rewriting =
        [(1, ⟨100, "b.properties"⟩), (0, ⟨100, "a.properties"⟩)] := by decide +kernel
    have hholds := (Holds.start (F := 2) [] FileTree.empty Entries.empty).after rewriting
    rw [List.nil_append, hgathered] at hholds
    have hmem : 1 ∈ e.sources := by
      rw [(hholds.perm e he).mem_iff]
      decide
    exact ⟨_, hfiles 1 hmem b "b.properties" hb hbfile, rfl,
      hrank [.reload "engine"] 1 _ (hholds.ranks _ List.mem_cons_self)⟩

end LayeredConfig.Session
