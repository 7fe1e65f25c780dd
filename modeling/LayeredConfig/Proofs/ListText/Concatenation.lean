import LayeredConfig.Proofs.ListText
import LayeredConfig.Proofs.Properties.LineBreaks

/-!
# Lists one after the other

A list text is refused for one reason, a backslash at its end that escapes nothing, and whether there is one shows on
the length of the run of backslashes at its end (`fields_eq_none_iff`).  So a comma behind a text that is read always
separates, and the items of two texts with a comma between them are those of the first and then those of the second
(`fields_append_comma`).  The same parity tells whether a line of properties goes on in the next one.
-/

namespace LayeredConfig.ListText

open Properties (continues continues_append continues_concat continues_iff)

/-! ### Fields -/

variable {a b : List Char} {fs gs : List (List Char)}

/-- A character that starts no escape is no backslash. -/
private theorem ne_backslash {c : Char} {cs : List Char} (hlast : c = '\\' → cs = [] → False)
    (hmore : ∀ d ds, c = '\\' → cs = d :: ds → False) : c ≠ '\\' := by
  intro hc
  cases cs with
  | nil => exact hlast hc rfl
  | cons d ds => exact hmore d ds hc rfl

/-- A text has no fields when its last backslash has nothing to escape. -/
theorem fields_eq_none_iff : fields a = none ↔ continues a = true := by
  fun_induction fields a with
  | case1 => simp [continues]
  | case2 => simp [continues]
  | case3 c cs ih =>
    -- An escape and its character leave the parity of the run at the end as it is.
    have hpair : continues ['\\', c] = false := by
      by_cases hc : c = '\\'
      · rw [hc]
        rfl
      · exact continues_concat hc ['\\']
    have hrest : continues ('\\' :: c :: cs) = continues cs := continues_append hpair cs
    rw [Option.map_eq_none_iff, ih, hrest]
  | case4 cs _ _ ih =>
    have hcomma : continues [','] = false := rfl
    have hrest : continues (',' :: cs) = continues cs := continues_append hcomma cs
    rw [Option.map_eq_none_iff, ih, hrest]
  | case5 c cs hlast hmore _ ih =>
    have hrest : continues (c :: cs) = continues cs :=
      continues_append (continues_concat (ne_backslash hlast hmore) []) cs
    rw [Option.map_eq_none_iff, ih, hrest]

/-- A text that is read has a first field. -/
private theorem exists_cons_of_fields (h : fields a = some fs) : ∃ field rest, fs = field :: rest := by
  unfold fields at h
  split at h
  · exact ⟨[], [], (Option.some.inj h).symm⟩
  · nomatch h
  · obtain ⟨gs, -, rfl⟩ := Option.map_eq_some_iff.1 h
    cases gs with
    | nil => exact ⟨_, _, rfl⟩
    | cons field rest => exact ⟨_, _, rfl⟩
  · split at h
    · obtain ⟨gs, -, rfl⟩ := Option.map_eq_some_iff.1 h
      exact ⟨_, _, rfl⟩
    · obtain ⟨gs, -, rfl⟩ := Option.map_eq_some_iff.1 h
      cases gs with
      | nil => exact ⟨_, _, rfl⟩
      | cons field rest => exact ⟨_, _, rfl⟩

/-- A comma behind a text that is read separates its fields from those behind the comma. -/
theorem fields_append_comma (ha : fields a = some fs) (hb : fields b = some gs) :
    fields (a ++ ',' :: b) = some (fs ++ gs) := by
  fun_induction fields a generalizing fs with
  | case1 =>
    obtain rfl := Option.some.inj ha
    exact fields_comma hb
  | case2 => nomatch ha
  | case3 c cs ih =>
    obtain ⟨fs', hfs, rfl⟩ := Option.map_eq_some_iff.1 ha
    obtain ⟨field, rest, rfl⟩ := exists_cons_of_fields hfs
    exact fields_escaped c (ih hfs)
  | case4 cs _ _ ih =>
    obtain ⟨fs', hfs, rfl⟩ := Option.map_eq_some_iff.1 ha
    exact fields_comma (ih hfs)
  | case5 c cs hlast hmore hc ih =>
    obtain ⟨fs', hfs, rfl⟩ := Option.map_eq_some_iff.1 ha
    obtain ⟨field, rest, rfl⟩ := exists_cons_of_fields hfs
    exact fields_plain (not_or.2 ⟨hc, ne_backslash hlast hmore⟩) (ih hfs)

/-- Whether a text with a comma in it is refused shows on what stands behind the comma. -/
private theorem fields_append_comma_eq_none_iff : fields (a ++ ',' :: b) = none ↔ fields b = none := by
  have hcomma : continues (a ++ [',']) = false := continues_concat (by decide) a
  rw [fields_eq_none_iff, fields_eq_none_iff, List.append_cons, continues_append hcomma]

/-! ### Items -/

private theorem split_eq_none_iff {raw : String} : split raw = none ↔ fields raw.toList = none := by
  rw [split, tokens, Option.map_eq_none_iff, Option.map_eq_none_iff]

private theorem split_append_comma {a : String} {items : List String} (h : split a = some items) (b : String) :
    split (a ++ "," ++ b) = (split b).map (items ++ ·) := by
  have htext : (a ++ "," ++ b).toList = a.toList ++ ',' :: b.toList := by
    rw [String.toList_append, String.toList_append, List.append_assoc]
    rfl
  cases ha : fields a.toList with
  | none =>
    rw [split_eq_none_iff.2 ha] at h
    nomatch h
  | some fs =>
    rw [split_of_fields ha] at h
    obtain rfl := Option.some.inj h
    cases hb : fields b.toList with
    | none =>
      have happend : split (a ++ "," ++ b) = none := by
        rw [split_eq_none_iff, htext, fields_append_comma_eq_none_iff, hb]
      rw [happend, split_eq_none_iff.2 hb, Option.map_none]
    | some gs =>
      have happend : fields (a ++ "," ++ b).toList = some (fs ++ gs) := by
        rw [htext, fields_append_comma ha hb]
      rw [split_of_fields hb, split_of_fields happend, List.map_append, List.filter_append, Option.map_some]

/-- Reading fails on exactly the texts that end in an odd run of backslashes.  Behind a text that is read, a comma and
a second text add the items of the second text, or make the reading fail as it fails for the second text alone. -/
theorem split_compositional (a b : String) :
    (split a = none ↔ ∃ front n, a.toList = front ++ List.replicate n '\\' ∧ '\\' ∉ front.getLast? ∧ n % 2 = 1) ∧
      ∀ items, split a = some items → split (a ++ "," ++ b) = (split b).map (items ++ ·) := by
  refine ⟨?_, fun items h => split_append_comma h b⟩
  rw [split_eq_none_iff, fields_eq_none_iff, continues_iff]

/-- A text that ends in two backslashes, before one with an escaped comma and before one that ends in three. -/
theorem split_compositional_paths :
    split "c:\\\\tmp\\\\" = some ["c:\\tmp\\"] ∧
      split ("c:\\\\tmp\\\\" ++ "," ++ " x\\,, y") = some ["c:\\tmp\\", "x,", "y"] ∧
      split ("c:\\\\tmp\\\\" ++ "," ++ "x\\\\\\") = none := by
  have hread : split "c:\\\\tmp\\\\" = some ["c:\\tmp\\"] := by decide +kernel
  refine ⟨hread, ?_, ?_⟩
  · rw [(split_compositional "c:\\\\tmp\\\\" " x\\,, y").2 _ hread]
    decide +kernel
  · rw [(split_compositional "c:\\\\tmp\\\\" "x\\\\\\").2 _ hread]
    decide +kernel

end LayeredConfig.ListText
