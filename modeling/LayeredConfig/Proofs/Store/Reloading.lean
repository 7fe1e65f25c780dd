import LayeredConfig.Proofs.Store.Building
import LayeredConfig.Proofs.Store.Markers
import Mathlib.Data.List.Induction
import Mathlib.Logic.Function.Iterate

/-!
# Loading files again

A load gives new entries, finds the file missing, or fails although there is a file.  So what several loads leave behind
is decided by the last one that did not fail in the third way (`leftBy_left`).  Reading the sources of an engine again
loads the file of every one of them, whatever becomes of the others (`source?_foldl_reloadSource`).
-/

namespace LayeredConfig

/-! ### What loads leave behind -/

namespace ConfigFile

private theorem ofPath_ne_fileNotFound (path name : String) : FileFormat.ofPath path ≠ .error (.fileNotFound name) := by
  unfold FileFormat.ofPath
  split
  · nofun
  · dsimp only
    split_ifs <;> nofun

private theorem parse_ne_fileNotFound (format : FileFormat) (text name : String) :
    parse format text ≠ .error (.fileNotFound name) := by
  cases format with
  | properties => nofun
  | toml =>
    rw [parse]
    split <;> nofun
  | yaml =>
    rw [parse]
    split
    · nofun
    · split <;> nofun

/-- A load finds the file missing when nothing is there to be read in a format that is known. -/
theorem load_eq_fileNotFound_iff {read : FileReader} {path name : String} :
    load read path = .error (.fileNotFound name) ↔
      (∃ format, FileFormat.ofPath path = .ok format) ∧ read path = .error .missing ∧ name = path := by
  have hofPath := ofPath_ne_fileNotFound path name
  rw [load]
  generalize FileFormat.ofPath path = known at hofPath
  cases known with
  | error e =>
    refine iff_of_false (fun h => ?_) fun h => nomatch h.1
    have he : e = .fileNotFound name := Except.error.inj h
    exact hofPath (congrArg Except.error he)
  | ok format =>
    cases read path with
    | error fault =>
      cases fault with
      | missing => exact ⟨fun h => ⟨⟨format, rfl⟩, rfl, by cases h; rfl⟩, fun ⟨_, _, hname⟩ => by rw [hname]; rfl⟩
      | _ => exact iff_of_false nofun fun h => nomatch h.2.1
    | ok text => exact iff_of_false (parse_ne_fileNotFound format text name) fun h => nomatch h.2.1

/-- The file is there, but it cannot be loaded. -/
def Unusable (load : Except FileError Entries) : Prop := ∃ e, load = .error e ∧ ∀ path, e ≠ .fileNotFound path

/-- The entries after a load. -/
def kept (entries : Entries) : Except FileError Entries → Entries
  | .ok loaded => loaded
  | .error (.fileNotFound _) => Entries.empty
  | .error _ => entries

/-- The entries after several loads. -/
def left (loads : List (Except FileError Entries)) : Entries := loads.foldl kept Entries.empty

/-- The entries are those of the last load that succeeded, and there are none if there was no such load, or if the file
has been found missing since. -/
structure LeftBy (loads : List (Except FileError Entries)) (entries : Entries) : Prop where
  loaded : ∀ before last since, loads = before ++ .ok last :: since → (∀ load ∈ since, Unusable load) → entries = last
  empty : (∀ before last since, loads = before ++ .ok last :: since → ∃ path, .error (.fileNotFound path) ∈ since) →
    entries = Entries.empty

variable {entries : Entries} {load : Except FileError Entries} {loads : List (Except FileError Entries)}

private theorem kept_of_unusable (h : Unusable load) (entries : Entries) : kept entries load = entries := by
  obtain ⟨e, rfl, hne⟩ := h
  cases e with
  | fileNotFound path => exact absurd rfl (hne path)
  | _ => rfl

/-- Loading a file several times in a row is like loading it once. -/
private theorem kept_kept (entries : Entries) (load : Except FileError Entries) :
    kept (kept entries load) load = kept entries load := by
  cases load with
  | ok loaded => rfl
  | error e => cases e <;> rfl

theorem foldl_kept_of_unusable (h : ∀ load ∈ loads, Unusable load) (entries : Entries) :
    loads.foldl kept entries = entries := by
  induction loads with
  | nil => rfl
  | cons load loads ih =>
    rw [List.forall_mem_cons] at h
    rw [List.foldl_cons, kept_of_unusable h.1, ih h.2]

theorem foldl_kept_replicate (entries : Entries) (load : Except FileError Entries) (n : Nat) :
    (List.replicate (n + 1) load).foldl kept entries = kept entries load := by
  induction n with
  | zero => rfl
  | succ n ih => rw [List.replicate_succ', List.foldl_append, ih, List.foldl_cons, List.foldl_nil, kept_kept]

theorem left_append (loads further : List (Except FileError Entries)) :
    left (loads ++ further) = further.foldl kept (left loads) := List.foldl_append

theorem leftBy_left (loads : List (Except FileError Entries)) : LeftBy loads (left loads) := by
  constructor
  · rintro before last since rfl hsince
    rw [left_append, List.foldl_cons]
    exact foldl_kept_of_unusable hsince last
  · intro h
    induction loads using List.reverseRecOn with
    | nil => rfl
    | append_singleton loads load ih =>
      rw [left_append, List.foldl_cons, List.foldl_nil]
      cases load with
      | ok loaded =>
        obtain ⟨path, hpath⟩ := h loads loaded [] rfl
        cases hpath
      | error e =>
        have hearlier (hne : ∀ path, e ≠ .fileNotFound path) : left loads = Entries.empty := by
          refine ih fun before last since hloads => ?_
          obtain ⟨path, hpath⟩ := h before last (since ++ [.error e]) (by rw [hloads, List.append_assoc]; rfl)
          rcases List.mem_append.1 hpath with hpath | hpath
          · exact ⟨path, hpath⟩
          · have heq := Except.error.inj (List.mem_singleton.1 hpath)
            exact absurd heq.symm (hne path)
        cases e with
        | fileNotFound path => rfl
        | _ => exact hearlier fun _ => nofun

end ConfigFile

namespace Source

open ConfigFile (kept)

variable {source : Source} {read : FileReader} {vars : Entries} {path : String}

/-- A source of a file starts with what the first load leaves behind. -/
theorem ofFile_eq_left (read : FileReader) (path : String) (ordinal : Int) :
    (ofFile read path ordinal).backing = .file path ∧ (ofFile read path ordinal).name = path ∧
      (ofFile read path ordinal).entries = ConfigFile.left [ConfigFile.load read path] := by
  unfold ofFile
  cases ConfigFile.load read path with
  | ok entries => exact ⟨rfl, rfl, rfl⟩
  | error e => cases e <;> exact ⟨rfl, rfl, rfl⟩

/-- A source of a file changes its entries only. -/
private theorem reload_of_file (h : source.backing = .file path) :
    source.reload read vars = { source with entries := kept source.entries (ConfigFile.load read path) } := by
  obtain ⟨name, ordinal, entries, backing⟩ := source
  obtain rfl : backing = .file path := h
  rw [reload]
  dsimp only
  cases ConfigFile.load read path with
  | ok loaded => rfl
  | error e => cases e <;> rfl

theorem iterate_reload_of_file (h : source.backing = .file path) (n : Nat) :
    (Source.reload read vars)^[n] source =
      { source with entries := (List.replicate n (ConfigFile.load read path)).foldl kept source.entries } := by
  induction n generalizing source with
  | zero => rfl
  | succ n ih =>
    have hfirst : ({ source with entries := kept source.entries (ConfigFile.load read path) } : Source).backing =
        .file path := h
    rw [Function.iterate_succ_apply, reload_of_file h, ih hfirst]
    rfl

/-- No other source becomes one of a file. -/
private theorem file_of_reload (h : (source.reload read vars).backing = .file path) : source.backing = .file path := by
  unfold reload at h
  split at h
  · exact h
  · exact h
  · split at h <;> exact h
  · split at h
    · exact h
    · cases h

theorem file_of_iterate_reload {n : Nat} (h : ((Source.reload read vars)^[n] source).backing = .file path) :
    source.backing = .file path := by
  induction n with
  | zero => exact h
  | succ n ih =>
    rw [Function.iterate_succ_apply'] at h
    exact ih (file_of_reload h)

end Source

/-! ### Operations on a store, as one source sees them -/

namespace Store

variable {st : Store} {F : EngineId} {e : Engine} {id x : SourceId} {j : Joined}

private theorem source?_setJoined (st : Store) (id x : SourceId) (j : Joined) :
    (st.setJoined id j).source? x = if x = id then some j.source else st.source? x := by
  rw [source?, joined?_setJoined]
  split <;> rfl

theorem source?_reportTo (st : Store) (F : EngineId) (x : SourceId) : (st.reportTo F).source? x = st.source? x := by
  unfold reportTo
  split <;> rfl

theorem source?_report (st : Store) (j : Joined) (x : SourceId) : (st.report j).source? x = st.source? x := by
  unfold report
  split
  · exact source?_reportTo st _ x
  · rfl

theorem source?_setValue_of_ne (hne : x ≠ id) (key value : String) :
    (st.setValue id j key value).source? x = st.source? x := by
  unfold setValue
  dsimp only
  split <;> simp [source?_report, source?_setJoined, hne]

theorem source?_removeKey_of_ne (hne : x ≠ id) (key : String) :
    (st.removeKey id j key).source? x = st.source? x := by
  unfold removeKey
  dsimp only
  split <;> simp [source?_report, source?_setJoined, hne]

theorem source?_close (st : Store) (F : EngineId) (e : Engine) (x : SourceId) :
    (st.close F e).2.store.source? x = st.source? x := by
  unfold close
  split <;> rfl

/-- Building an engine makes at most the source of its environment. -/
theorem source?_build {ids : List SourceId} {environment : Bool} {pending : List Pending} {n : Noticed}
    (h : st.build ids environment pending = .ok (F, n)) (x : SourceId) :
    n.store.source? x = st.source? x ∨
      x = st.next ∧ n.store.source? x = some (Source.ofEnvironment st.vars) := by
  unfold build at h
  split at h
  · cases h
  · cases environment with
    | false =>
      obtain ⟨rfl, rfl⟩ := Prod.mk.inj (Except.ok.inj h)
      exact .inl (source?_addSources _ _ _ x)
    | true =>
      obtain ⟨rfl, rfl⟩ := Prod.mk.inj (Except.ok.inj h)
      rw [source?_addSources]
      by_cases hx : x = st.next
      · exact .inr ⟨hx, (source?_addSource st _ x).trans (if_pos hx)⟩
      · exact .inl ((source?_addSource st _ x).trans (if_neg hx))

/-! ### Reading sources again -/

private theorem files_reloadSource (n : Noticed) (id : SourceId) : (reloadSource n id).store.files = n.store.files := by
  unfold reloadSource
  split <;> rfl

private theorem vars_reloadSource (n : Noticed) (id : SourceId) : (reloadSource n id).store.vars = n.store.vars := by
  unfold reloadSource
  split <;> rfl

theorem source?_reloadSource (n : Noticed) (id x : SourceId) :
    (reloadSource n id).store.source? x =
      if x = id then (n.store.source? x).map (Source.reload n.store.files.read n.store.vars)
      else n.store.source? x := by
  unfold reloadSource
  split
  next hj =>
    split
    next hx => rw [hx, source?, hj]; rfl
    next => rfl
  next j hj =>
    rw [source?_setJoined]
    split
    next hx => rw [hx, source?, hj]; rfl
    next => rfl

/-- Every source is read again as often as it is listed, whatever becomes of the others. -/
theorem source?_foldl_reloadSource (n : Noticed) (ids : List SourceId) (x : SourceId) :
    (ids.foldl reloadSource n).store.source? x =
      (n.store.source? x).map (Source.reload n.store.files.read n.store.vars)^[ids.count x] := by
  induction ids generalizing n with
  | nil => exact Option.map_id'.symm
  | cons id ids ih =>
    rw [List.foldl_cons, ih, files_reloadSource, vars_reloadSource, source?_reloadSource, List.count_cons]
    by_cases hx : x = id
    · rw [if_pos hx, hx, beq_self_eq_true, if_pos rfl, Option.map_map]
      rfl
    · have hne : (id == x) = false := beq_eq_false_iff_ne.2 (Ne.symm hx)
      rw [if_neg hx, hne]
      rfl

theorem source?_reload (st : Store) (F : EngineId) (e : Engine) (x : SourceId) :
    (st.reload F e).store.source? x =
      (st.source? x).map (Source.reload st.files.read st.vars)^[e.sources.count x] :=
  (source?_reportTo _ F x).trans (source?_foldl_reloadSource ⟨st, []⟩ e.sources x)

/-- The engine itself takes note of one change. -/
theorem engine?_reload (he : st.engine? F = some e) :
    (st.reload F e).store.engine? F = some { e with marker := st.nextMarker e } :=
  engine?_reportTo_self (sameEngines_foldl sameEngines_reloadSource e.sources ⟨st, []⟩) he

/-- Ordered sources keep their order when others join them. -/
theorem sublist_gain {rank : SourceId → Rank} {old : List SourceId}
    (h : old.Pairwise fun a b => (rank a).before (rank b)) (given : List SourceId) :
    old.Sublist (gain rank old given) := by
  unfold gain
  split
  · exact .refl old
  · exact SourceSet.sublist_merge h given

end Store

end LayeredConfig
