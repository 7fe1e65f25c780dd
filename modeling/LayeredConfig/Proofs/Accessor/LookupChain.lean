import LayeredConfig.Accessor

/-!
# The chain of keys that an accessor looks up

A key with `n` suffixes stands for `2 ^ n` keys, one for each selection of suffixes, and the accessor counts a bit
mask down over them.  `combinations` lists the selections without masks, suffix by suffix.  The key facts: counting
down gives the keys in the order of `combinations` (`candidates_eq`), no selection comes after one that it is part of
(`pairwise_combinations`), and the first key that has a value decides (`lookup_of_present`, `lookup_of_absent`).
-/

namespace LayeredConfig

/-! ### Selections -/

/-- The selections from a list: at each element in order those with it, before those without it. -/
def combinations {α : Type} : List α → List (List α)
  | [] => [[]]
  | a :: rest => (combinations rest).map (a :: ·) ++ combinations rest

section

variable {α β : Type} {l c : List α}

private theorem mem_combinations : c ∈ combinations l ↔ c.Sublist l := by
  induction l generalizing c with
  | nil => simp [combinations]
  | cons a rest ih =>
    rw [combinations, List.mem_append, List.mem_map, ih, List.sublist_cons_iff]
    constructor
    · rintro (⟨d, hd, rfl⟩ | hc)
      · exact .inr ⟨d, rfl, ih.1 hd⟩
      · exact .inl hc
    · rintro (hc | ⟨d, rfl, hd⟩)
      · exact .inr hc
      · exact .inl ⟨d, ih.2 hd, rfl⟩

private theorem combinations_map (f : α → β) (l : List α) :
    combinations (l.map f) = (combinations l).map (List.map f) := by
  induction l with
  | nil => rfl
  | cons a rest ih =>
    rw [List.map_cons, combinations, combinations, ih, List.map_append, List.map_map, List.map_map]
    rfl

/-- The empty selection comes last. -/
private theorem getLast?_combinations (l : List α) : (combinations l).getLast? = some [] := by
  induction l with
  | nil => rfl
  | cons a rest ih => rw [combinations, List.getLast?_append, ih, Option.some_or]

/-- No selection comes before one that it is part of, or twice. -/
theorem pairwise_combinations (hl : l.Nodup) : (combinations l).Pairwise fun c d => ¬ c.Sublist d := by
  induction l with
  | nil => exact List.pairwise_singleton _ _
  | cons a rest ih =>
    obtain ⟨ha, hrest⟩ := List.nodup_cons.1 hl
    rw [combinations, List.pairwise_append, List.pairwise_map]
    refine ⟨(ih hrest).imp fun hcd h => hcd (List.cons_sublist_cons.1 h), ih hrest, fun c hc d hd hcd => ?_⟩
    -- A selection with `a` is not part of one from the rest, which does not have `a`.
    obtain ⟨c, -, rfl⟩ := List.mem_map.1 hc
    exact ha ((hcd.trans (mem_combinations.1 hd)).subset List.mem_cons_self)

end

namespace Accessor

/-- A key with suffixes behind it. -/
def joined (key : String) (suffixes : List String) : String := ".".intercalate (key :: suffixes)

/-- The keys to look up, the most specific one first. -/
def candidates (key : String) (suffixes : List String) : List String := (combinations suffixes).map (joined key)

/-! ### Counting down -/

section

variable {v : View} {r : Registry} {s : Settings} {key k raw : String} {suffixes tried rest : List String}

/-- Bits above all suffixes do not count. -/
private theorem candidate_two_pow_add {n : Nat} (hn : suffixes.length ≤ n) (key : String) (mask : Nat) :
    candidate key (2 ^ n + mask) suffixes = candidate key mask suffixes := by
  induction suffixes generalizing key with
  | nil => rfl
  | cons suffix rest ih =>
    rw [List.length_cons] at hn
    rw [candidate, candidate, Nat.testBit_two_pow_add_gt (by omega), ih (by omega)]

/-- The keys of all masks, counted down. -/
theorem candidates_eq (key : String) (suffixes : List String) :
    candidates key suffixes =
      (List.range (2 ^ suffixes.length)).reverse.map fun mask => candidate key mask suffixes := by
  induction suffixes generalizing key with
  | nil => rfl
  | cons suffix rest ih =>
    -- The upper half of the masks has the bit of the first suffix.
    have hupper (mask : Nat) (hmask : mask ∈ (List.range (2 ^ rest.length)).reverse) :
        candidate key (2 ^ rest.length + mask) (suffix :: rest) = candidate (key ++ "." ++ suffix) mask rest := by
      rw [List.mem_reverse, List.mem_range] at hmask
      have hbit : (2 ^ rest.length + mask).testBit rest.length = true := by
        rw [Nat.testBit_two_pow_add_eq, Nat.testBit_lt_two_pow hmask]
        rfl
      rw [candidate, if_pos hbit, candidate_two_pow_add (Nat.le_refl _)]
    have hlower (mask : Nat) (hmask : mask ∈ (List.range (2 ^ rest.length)).reverse) :
        candidate key mask (suffix :: rest) = candidate key mask rest := by
      rw [List.mem_reverse, List.mem_range] at hmask
      rw [candidate, Nat.testBit_lt_two_pow hmask, if_neg (by simp)]
    have hjoined (c : List String) : joined key (suffix :: c) = joined (key ++ "." ++ suffix) c := rfl
    rw [candidates, combinations, List.map_append, List.map_map, List.length_cons, Nat.pow_succ, Nat.mul_two,
      List.range_add, List.reverse_append, ← List.map_reverse, List.map_append, List.map_map]
    congr 1
    · exact (ih (key ++ "." ++ suffix)).trans (List.map_congr_left hupper).symm
    · exact (ih key).trans (List.map_congr_left hlower).symm

/-- Looks up keys one after the other. -/
def searchKeys (v : View) : List String → Search
  | [] => ⟨none, []⟩
  | k :: rest =>
    match v.present? k with
    | some raw => ⟨some (k, raw), [k]⟩
    | none => ⟨(searchKeys v rest).found, k :: (searchKeys v rest).asked⟩

private theorem search_eq (v : View) (key : String) (suffixes : List String) (mask : Nat) :
    search v key suffixes mask =
      searchKeys v ((List.range mask).reverse.map fun m => candidate key (m + 1) suffixes) := by
  induction mask with
  | zero => rfl
  | succ mask ih =>
    rw [List.range_succ, List.reverse_append, List.reverse_singleton, List.singleton_append, List.map_cons]
    cases hk : v.present? (candidate key (mask + 1) suffixes) with
    | none => simp only [search, searchKeys, hk, ih]
    | some raw => simp only [search, searchKeys, hk]

private theorem candidate_zero (key : String) (suffixes : List String) : candidate key 0 suffixes = key := by
  induction suffixes with
  | nil => rfl
  | cons suffix rest ih => rw [candidate, Nat.zero_testBit, if_neg (by simp), ih]

/-- The accessor searches all keys but the last, which is the key without suffixes. -/
private theorem exists_searchKeys (v : View) (key : String) (suffixes : List String) :
    ∃ specific, candidates key suffixes = specific ++ [key] ∧
      search v key suffixes (2 ^ suffixes.length - 1) = searchKeys v specific := by
  refine ⟨_, ?_, search_eq v key suffixes _⟩
  have hpos : 2 ^ suffixes.length = 2 ^ suffixes.length - 1 + 1 := (Nat.succ_pred_eq_of_pos (Nat.two_pow_pos _)).symm
  rw [candidates_eq, hpos, List.range_succ_eq_map, List.reverse_cons, List.map_append, ← List.map_reverse,
    List.map_map, List.map_singleton, candidate_zero]
  rfl

private theorem searchKeys_of_absent {keys : List String} (h : ∀ k ∈ keys, v.present? k = none) :
    searchKeys v keys = ⟨none, keys⟩ := by
  induction keys with
  | nil => rfl
  | cons k keys ih =>
    obtain ⟨hk, hkeys⟩ := List.forall_mem_cons.1 h
    rw [searchKeys, hk, ih hkeys]

private theorem searchKeys_of_present (htried : ∀ t ∈ tried, v.present? t = none) (hk : v.present? k = some raw)
    (rest : List String) : searchKeys v (tried ++ k :: rest) = ⟨some (k, raw), tried ++ [k]⟩ := by
  induction tried with
  | nil => rw [List.nil_append, searchKeys, hk]; rfl
  | cons t tried ih =>
    obtain ⟨ht, htried⟩ := List.forall_mem_cons.1 htried
    rw [List.cons_append, searchKeys, ht, ih htried]
    rfl

/-! ### Looking up -/

private theorem find_of_present? (h : v.present? k = some raw) : v.find k = some raw :=
  (Option.filter_eq_some_iff.1 h).1

private theorem expand_empty (v : View) : v.expand "" = ⟨"", []⟩ := by
  have hturn : (Template.Progress.start "").turn v.present? = .last ⟨[], false, []⟩ := by
    simp [Template.Progress.turn, Template.Progress.start, Template.scan, Template.Reference.first?,
      Template.splitOpen]
  rw [View.expand, Template.expand, Template.expand?, Template.Progress.finish?, hturn]
  rfl

private theorem process_empty (v : View) (s : Settings) : process v s "" = ⟨"", []⟩ := by
  rw [process, expand_empty, ite_self]

/-- The first key that has a value decides, even if the value becomes empty. -/
theorem lookup_of_present (hkeys : candidates s.key suffixes = tried ++ k :: rest)
    (htried : ∀ t ∈ tried, v.present? t = none) (hk : v.present? k = some raw) :
    lookup v s suffixes = ⟨k, nonempty (process v s raw).text, tried ++ k :: (process v s raw).asked⟩ := by
  obtain ⟨specific, hspecific, hsearch⟩ := exists_searchKeys v s.key suffixes
  rw [hspecific] at hkeys
  rw [lookup, hsearch]
  rcases List.eq_nil_or_concat rest with rfl | ⟨rest, last, rfl⟩
  · obtain ⟨rfl, hkey⟩ := List.append_inj' hkeys rfl
    obtain rfl : s.key = k := (List.cons.inj hkey).1
    rw [searchKeys_of_absent htried]
    simp only [find_of_present? hk]
  · rw [List.concat_eq_append, ← List.cons_append, ← List.append_assoc] at hkeys
    obtain ⟨rfl, -⟩ := List.append_inj' hkeys rfl
    rw [searchKeys_of_present htried hk]
    dsimp only
    rw [List.append_assoc, List.singleton_append]

/-- Without a value at any key there is none, and the key without suffixes answers. -/
theorem lookup_of_absent (h : ∀ k ∈ candidates s.key suffixes, v.present? k = none) :
    lookup v s suffixes = ⟨s.key, none, candidates s.key suffixes⟩ := by
  obtain ⟨specific, hspecific, hsearch⟩ := exists_searchKeys v s.key suffixes
  rw [hspecific, List.forall_mem_append, List.forall_mem_singleton] at h
  rw [lookup, hsearch, searchKeys_of_absent h.1, hspecific]
  dsimp only
  -- The key without suffixes is looked up even where its value is empty, and nothing comes of it.
  cases hfind : v.find s.key with
  | none => rfl
  | some raw =>
    have hraw : raw = "" := by simpa [View.present?, hfind] using h.2
    simp [hraw, process_empty, nonempty]

/-- A text becomes another one when its references are replaced, if the accessor does so. -/
def Becomes (v : View) (s : Settings) (raw text : String) : Prop :=
  if s.expands then ∃ e, Template.expand? v.present? raw = some e ∧ String.ofList e.text = text else raw = text

private theorem process_of_becomes {text : String} (h : Becomes v s raw text) : (process v s raw).text = text := by
  unfold Becomes at h
  unfold process
  by_cases hexpands : s.expands
  · rw [if_pos hexpands] at h ⊢
    obtain ⟨e, he, rfl⟩ := h
    rw [View.expand, Template.expand, he]
    rfl
  · rw [if_neg hexpands] at h ⊢
    exact h

/-- What it means that a key is looked up along its chain: all selections of suffixes are tried, each of them before
those that are part of it and the key alone last, up to the first that has a value which is not empty.  That one is
the answer even if its value becomes empty, and without any there is none. -/
structure FollowsChain (v : View) (s : Settings) (suffixes : List String) : Prop where
  keys : candidates s.key suffixes = (combinations suffixes.zipIdx).map fun c => joined s.key (c.map Prod.fst)
  complete : ∀ c, c ∈ combinations suffixes.zipIdx ↔ c.Sublist suffixes.zipIdx
  before : (combinations suffixes.zipIdx).Pairwise fun c d => ¬ c.Sublist d
  last : (candidates s.key suffixes).getLast? = some s.key
  present : ∀ tried k rest raw text, candidates s.key suffixes = tried ++ k :: rest →
    (∀ t ∈ tried, v.present? t = none) → v.present? k = some raw → Becomes v s raw text →
      (lookup v s suffixes).key = k ∧ (lookup v s suffixes).raw = nonempty text ∧
        (tried ++ [k]).IsPrefix (lookup v s suffixes).asked
  absent : (∀ k ∈ candidates s.key suffixes, v.present? k = none) →
    lookup v s suffixes = ⟨s.key, none, candidates s.key suffixes⟩

theorem followsChain (v : View) (s : Settings) (suffixes : List String) : FollowsChain v s suffixes := by
  have hnodup : suffixes.zipIdx.Nodup := by
    have hpositions : (suffixes.zipIdx.map Prod.snd).Nodup := by
      rw [List.zipIdx_map_snd]
      exact List.nodup_range'
    exact (List.pairwise_map.1 hpositions).imp fun hne heq => hne (congrArg Prod.snd heq)
  refine ⟨?_, fun c => mem_combinations, pairwise_combinations hnodup, ?_, ?_, lookup_of_absent⟩
  · have hsuffixes : suffixes = suffixes.zipIdx.map Prod.fst := (List.zipIdx_map_fst 0 suffixes).symm
    rw [candidates]
    conv => lhs; rw [hsuffixes]
    rw [combinations_map, List.map_map]
    rfl
  · rw [candidates, List.getLast?_map, getLast?_combinations]
    rfl
  · intro tried k rest raw text hkeys htried hk htext
    rw [lookup_of_present hkeys htried hk, process_of_becomes htext]
    refine ⟨rfl, rfl, ?_⟩
    dsimp only
    rw [List.prefix_append_right_inj]
    exact List.prefix_append [k] _

/-! ### The suffixes that apply -/

/-- The texts that are there and not empty. -/
def nonempties (values : List (Option String)) : List String := values.filterMap fun value => value.bind nonempty

/-- What each suffix comes to, in order. -/
def suffixValues (v : View) (r : Registry) : Suffixes → Except ConfigError (List (Option String))
  | .nil => .ok []
  | .literal text rest => (suffixValues v r rest).map (some text :: ·)
  | .resolved source rest =>
    let read := source.optionalValue v r
    match read.outcome with
    | .error e => .error e
    | .ok value => (suffixValues v read.registry rest).map (value.map Value.render :: ·)

private theorem consPresent_nonempties (value : Option String) (values : List (Option String)) :
    consPresent value (nonempties values) = nonempties (value :: values) := by
  cases value with
  | none => rfl
  | some text =>
    rw [consPresent, nonempties, nonempties, List.filterMap_cons, Option.bind_some, nonempty]
    split
    · rfl
    · rfl

/-- The suffixes that apply are the values that are there and not empty. -/
theorem presentSuffixes_outcome (v : View) (r : Registry) (suffixes : Suffixes) :
    (presentSuffixes v r suffixes).outcome = (suffixValues v r suffixes).map nonempties := by
  have hcons (o : Except ConfigError (List (Option String))) (value : Option String) :
      (o.map nonempties).map (consPresent value) = (o.map (value :: ·)).map nonempties := by
    cases o with
    | error e => rfl
    | ok values => exact congrArg Except.ok (consPresent_nonempties value values)
  cases suffixes with
  | nil => rfl
  | literal text rest => rw [presentSuffixes, suffixValues, ← hcons, ← presentSuffixes_outcome v r rest]
  | resolved source rest =>
    rw [presentSuffixes, suffixValues]
    dsimp only
    cases (source.optionalValue v r).outcome with
    | error e => rfl
    | ok value => exact (congrArg _ (presentSuffixes_outcome v _ rest)).trans (hcons _ _)

private theorem length_of_suffixValues {r : Registry} {suffixes : Suffixes} {values : List (Option String)}
    (h : suffixValues v r suffixes = .ok values) : values.length = suffixes.size := by
  have hcons {o : Except ConfigError (List (Option String))} {value : Option String}
      (h : o.map (value :: ·) = .ok values) : ∃ rest, o = .ok rest ∧ values.length = rest.length + 1 := by
    cases o with
    | error e => nomatch h
    | ok rest =>
      obtain rfl := Except.ok.inj h
      exact ⟨rest, rfl, rfl⟩
  cases suffixes with
  | nil =>
    obtain rfl := Except.ok.inj h
    rfl
  | literal text rest =>
    obtain ⟨values', hvalues, hlength⟩ := hcons h
    rw [hlength, length_of_suffixValues hvalues, Suffixes.size]
  | resolved source rest =>
    rw [suffixValues] at h
    split at h
    · nomatch h
    · obtain ⟨values', hvalues, hlength⟩ := hcons h
      rw [hlength, length_of_suffixValues hvalues, Suffixes.size]

/-- There are at most as many suffixes that apply as there are suffixes. -/
theorem length_nonempties_le {suffixes : Suffixes} {values : List (Option String)}
    (h : suffixValues v r suffixes = .ok values) : (nonempties values).length ≤ suffixes.size := by
  rw [← length_of_suffixValues h]
  exact List.length_filterMap_le _ _

/-! ### What an accessor answers -/

/-- An accessor answers what was looked up: a read without conversion gives the text, any other read that is worked
out gives its result, and both keep the key. -/
structure Answers (v : View) (r : Registry) (a : Accessor) (l : Lookup) : Prop where
  raw : (a.rawValue v r).outcome = .ok l.raw
  rawKey : (a.rawValue v r).accessor.memory.resolvedKey = some l.key
  value : kept? v a.settings a.memory = none →
    (a.optionalValue v r).outcome = (result a.settings (presentSuffixes v r a.suffixes).registry l.raw).1
  valueKey : kept? v a.settings a.memory = none → ∀ value, (a.optionalValue v r).outcome = .ok value →
    (a.optionalValue v r).accessor.memory.resolvedKey = some l.key

theorem answers_of_presentSuffixes {a : Accessor} {texts : List String}
    (h : (presentSuffixes v r a.suffixes).outcome = .ok texts) : a.Answers v r (lookup v a.settings texts) := by
  cases a with
  | mk s suffixes m =>
    have h : (presentSuffixes v r suffixes).outcome = .ok texts := h
    have hworked (hkept : kept? v s m = none) :
        ((mk s suffixes m).optionalValue v r).outcome =
            (result s (presentSuffixes v r suffixes).registry (lookup v s texts).raw).1 ∧
          ∀ value, ((mk s suffixes m).optionalValue v r).outcome = .ok value →
            ((mk s suffixes m).optionalValue v r).accessor.memory.resolvedKey = some (lookup v s texts).key := by
      simp only [optionalValue, hkept, h]
      cases result s (presentSuffixes v r suffixes).registry (lookup v s texts).raw with
      | mk outcome r' =>
        cases outcome with
        | error e => exact ⟨rfl, fun value hvalue => nomatch hvalue⟩
        | ok value => exact ⟨rfl, fun _ _ => rfl⟩
    have hraw : (mk s suffixes m).rawValue v r =
        ⟨.ok (lookup v s texts).raw, mk s (presentSuffixes v r suffixes).suffixes
          { m with resolvedKey := some (lookup v s texts).key }, (presentSuffixes v r suffixes).registry,
          (presentSuffixes v r suffixes).asked ++ (lookup v s texts).asked⟩ := by
      simp only [rawValue, h]
    exact ⟨by rw [hraw]; rfl, by rw [hraw]; rfl, fun hkept => (hworked hkept).1, fun hkept => (hworked hkept).2⟩

/-- A suffix that cannot be worked out fails the reads of the accessor. -/
theorem fails_of_presentSuffixes {a : Accessor} {e : ConfigError}
    (h : (presentSuffixes v r a.suffixes).outcome = .error e) :
    (a.rawValue v r).outcome = .error e ∧
      (kept? v a.settings a.memory = none → (a.optionalValue v r).outcome = .error e) := by
  cases a with
  | mk s suffixes m =>
    have h : (presentSuffixes v r suffixes).outcome = .error e := h
    refine ⟨by simp only [rawValue, h], fun hkept => ?_⟩
    have hkept : kept? v s m = none := hkept
    simp only [optionalValue, hkept, h]

end

end Accessor

end LayeredConfig
