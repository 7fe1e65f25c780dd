import LayeredConfig.Converter.Builtin
import LayeredConfig.Proofs.Accessor.ListReads
import LayeredConfig.Proofs.Accessor.Malformed

/-!
# Sets

A set is read like a list, but an item is left out if it is the same as one kept before.  Items are compared in the way
of their type, which need not be an equivalence: not-a-number is not the same as itself and is kept every time.  What is
kept is determined by the list alone (`FirstSeen`), and a set is refused exactly when the list is, with the same error
(`distinctItems_firstSeen`).
-/

namespace LayeredConfig.Shape

variable {α : Type} {same : α → α → Bool} {values kept : List α} {v : α}

/-! ### What is kept of a list -/

/-- `kept` are the elements of `values`, in their order, that are not the same as one kept before them. -/
inductive FirstSeen (same : α → α → Bool) : (values kept : List α) → Prop where
  | nil : FirstSeen same [] []
  | again {values kept : List α} {v k : α} (h : FirstSeen same values kept) (hk : k ∈ kept) (hsame : same k v = true) :
    FirstSeen same (values ++ [v]) kept
  | first {values kept : List α} {v : α} (h : FirstSeen same values kept) (hnew : ∀ k ∈ kept, same k v = false) :
    FirstSeen same (values ++ [v]) (kept ++ [v])

private theorem FirstSeen.sublist (h : FirstSeen same values kept) : kept.Sublist values := by
  induction h with
  | nil => exact .slnil
  | again _ _ _ ih => exact ih.trans (List.sublist_append_left _ _)
  | first _ _ ih => exact ih.append (.refl _)

private theorem FirstSeen.pairwise (h : FirstSeen same values kept) :
    kept.Pairwise fun earlier later => same earlier later = false := by
  induction h with
  | nil => exact .nil
  | again _ _ _ ih => exact ih
  | first _ hnew ih =>
    refine List.pairwise_append.2 ⟨ih, List.pairwise_singleton _ _, fun k hk v hv => ?_⟩
    obtain rfl := List.mem_singleton.1 hv
    exact hnew k hk

/-- An element that is the same as itself is the same as one that is kept. -/
private theorem FirstSeen.exists_same (h : FirstSeen same values kept) (hv : v ∈ values) (hself : same v v = true) :
    ∃ k ∈ kept, same k v = true := by
  induction h with
  | nil => cases hv
  | again h hk hsame ih =>
    rcases List.mem_append.1 hv with hv | hv
    · exact ih hv
    · obtain rfl := List.mem_singleton.1 hv
      exact ⟨_, hk, hsame⟩
  | first h hnew ih =>
    rcases List.mem_append.1 hv with hv | hv
    · obtain ⟨k, hk, hsame⟩ := ih hv
      exact ⟨k, List.mem_append_left _ hk, hsame⟩
    · obtain rfl := List.mem_singleton.1 hv
      exact ⟨v, List.mem_append_right _ (List.mem_singleton_self v), hself⟩

private theorem firstSeen_nil_iff : FirstSeen same [] kept ↔ kept = [] := by
  refine ⟨fun h => List.sublist_nil.1 h.sublist, ?_⟩
  rintro rfl
  exact .nil

private theorem firstSeen_concat_iff :
    FirstSeen same (values ++ [v]) kept ↔
      (FirstSeen same values kept ∧ ∃ k ∈ kept, same k v = true) ∨
        ∃ before, kept = before ++ [v] ∧ FirstSeen same values before ∧ ∀ k ∈ before, same k v = false := by
  constructor
  · generalize hl : values ++ [v] = l
    intro h
    cases h with
    | nil => simp at hl
    | again h hk hsame =>
      obtain ⟨rfl, hv⟩ := List.append_inj' hl rfl
      obtain rfl := List.singleton_inj.1 hv
      exact .inl ⟨h, _, hk, hsame⟩
    | first h hnew =>
      obtain ⟨rfl, hv⟩ := List.append_inj' hl rfl
      obtain rfl := List.singleton_inj.1 hv
      exact .inr ⟨_, rfl, h, hnew⟩
  · rintro (⟨h, k, hk, hsame⟩ | ⟨before, rfl, h, hnew⟩)
    · exact .again h hk hsame
    · exact .first h hnew

/-- Only one list is what is kept. -/
private theorem FirstSeen.unique {kept' : List α} (h : FirstSeen same values kept) (h' : FirstSeen same values kept') :
    kept' = kept := by
  induction values using List.reverseRecOn generalizing kept kept' with
  | nil => rw [firstSeen_nil_iff.1 h, firstSeen_nil_iff.1 h']
  | append_singleton values v ih =>
    rcases firstSeen_concat_iff.1 h with ⟨h, k, hk, hsame⟩ | ⟨before, rfl, h, hnew⟩
    · rcases firstSeen_concat_iff.1 h' with ⟨h', -⟩ | ⟨before', rfl, h', hnew'⟩
      · exact ih h h'
      · obtain rfl := ih h h'
        rw [hnew' k hk] at hsame
        cases hsame
    · rcases firstSeen_concat_iff.1 h' with ⟨h', k, hk, hsame⟩ | ⟨before', rfl, h', -⟩
      · obtain rfl := ih h h'
        rw [hnew k hk] at hsame
        cases hsame
      · rw [ih h h']

/-- Nothing is left out of what was kept. -/
private theorem firstSeen_of_pairwise (h : values.Pairwise fun earlier later => same earlier later = false) :
    FirstSeen same values values := by
  induction values using List.reverseRecOn with
  | nil => exact .nil
  | append_singleton values v ih =>
    obtain ⟨h, -, hnew⟩ := List.pairwise_append.1 h
    exact .first (ih h) fun k hk => hnew k hk v (List.mem_singleton_self v)

/-! ### Converting the items -/

section

variable {convert : String → Except ConfigError α} {key raw : String}

/-- The loop goes on from what is kept of the items before. -/
private theorem distinct_of_mapM {before : List α} (h : FirstSeen same before kept) {tokens : List String}
    (hvalues : tokens.mapM convert = .ok values) :
    ∃ result, distinct same convert kept tokens = .ok result ∧ FirstSeen same (before ++ values) result := by
  induction tokens generalizing before kept values with
  | nil =>
    obtain rfl : [] = values := Except.ok.inj hvalues
    exact ⟨kept, rfl, by rwa [List.append_nil]⟩
  | cons token tokens ih =>
    rw [List.mapM_cons] at hvalues
    obtain ⟨v, hv, hvalues⟩ := bind_eq_ok.1 hvalues
    obtain ⟨rest, hrest, hvalues⟩ := bind_eq_ok.1 hvalues
    obtain rfl := Except.ok.inj hvalues
    have hnext : FirstSeen same (before ++ [v]) (if kept.any (same · v) then kept else kept ++ [v]) := by
      split
      next hany =>
        obtain ⟨k, hk, hsame⟩ := List.any_eq_true.1 hany
        exact .again h hk hsame
      next hany =>
        rw [Bool.not_eq_true, List.any_eq_false] at hany
        exact .first h fun k hk => Bool.eq_false_iff.2 (hany k hk)
    obtain ⟨result, hresult, hseen⟩ := ih hnext hrest
    refine ⟨result, bind_eq_ok.2 ⟨v, hv, hresult⟩, ?_⟩
    rwa [List.append_assoc] at hseen

private theorem distinctItems_of_items (same : α → α → Bool) (h : items convert key raw = .ok values) :
    ∃ kept, distinctItems same convert key raw = .ok kept ∧ FirstSeen same values kept := by
  obtain ⟨tokens, htokens, hvalues⟩ := bind_eq_ok.1 h
  obtain ⟨kept, hkept, hseen⟩ := distinct_of_mapM .nil hvalues
  exact ⟨kept, bind_eq_ok.2 ⟨tokens, htokens, hkept⟩, hseen⟩

end

/-- No two values of a set are the same, whichever of them is asked. -/
theorem decode_set_of_decode_list {convert : String → Except ConfigError Value} {key raw : String}
    {values : List Value} (h : Shape.list.decode key raw convert = .ok (.list values)) :
    ∃ kept, Shape.set.decode key raw convert = .ok (.list kept) ∧ FirstSeen Value.same values kept ∧
      kept.Pairwise fun x y => Value.same x y = false ∧ Value.same y x = false := by
  obtain ⟨values', hvalues, hlist⟩ := bind_eq_ok.1 h
  obtain rfl : values' = values := Value.list.inj (Except.ok.inj hlist)
  obtain ⟨kept, hkept, hseen⟩ := distinctItems_of_items Value.same hvalues
  refine ⟨kept, bind_eq_ok.2 ⟨kept, hkept, rfl⟩, hseen, hseen.pairwise.imp fun {x y} hne => ⟨hne, ?_⟩⟩
  rw [Value.same_comm, hne]

/-! ### Texts as items -/

/-- Items that are read as they stand. -/
private theorem items_of_texts {convert : String → Except ConfigError Value}
    (hconvert : ∀ token, convert token = .ok (.text token)) {key raw : String} {tokens : List String}
    (h : ListText.split raw = some tokens) :
    items convert key raw = .ok (tokens.map .text) := by
  obtain rfl : convert = fun token => pure (.text token) := funext hconvert
  rw [items, Shape.tokens, h]
  exact List.mapM_pure

/-- What is kept of the items is a list again that has no repetitions, so it is written and read without a change. -/
private theorem exists_texts_of_decode_set {convert : String → Except ConfigError Value}
    (hconvert : ∀ token, convert token = .ok (.text token)) {key raw : String} {v : Value}
    (h : Shape.set.decode key raw convert = .ok v) :
    ∃ texts : List String, v = .list (texts.map .text) ∧
      ∀ shape ≠ Shape.scalar, ∀ key', shape.decode key' (ListText.join texts) convert = .ok v := by
  obtain ⟨kept, hkept, hv⟩ := bind_eq_ok.1 h
  obtain rfl : .list kept = v := Except.ok.inj hv
  obtain ⟨tokens, htokens, -⟩ := bind_eq_ok.1 hkept
  have hsplit : ListText.split raw = some tokens := by
    rw [Shape.tokens] at htokens
    split at htokens
    next tokens' hsplit => rw [hsplit, Except.ok.inj htokens]
    next => cases htokens
  have hitems : items convert key raw = .ok (tokens.map .text) := items_of_texts hconvert hsplit
  obtain ⟨kept', hkept', hseen⟩ := distinctItems_of_items Value.same hitems
  obtain rfl : kept = kept' := Except.ok.inj (hkept.symm.trans hkept')
  obtain ⟨texts, hsub, rfl⟩ := List.sublist_map_iff.1 hseen.sublist
  refine ⟨texts, rfl, fun shape hshape key' => ?_⟩
  have hagain : ListText.split (ListText.join texts) = some texts :=
    ListText.split_join_of_isItem fun item hitem => ListText.isItem_of_mem_split hsplit (hsub.subset hitem)
  have hitems : items convert key' (ListText.join texts) = .ok (texts.map .text) := items_of_texts hconvert hagain
  cases shape with
  | scalar => exact absurd rfl hshape
  | list => exact bind_eq_ok.2 ⟨_, hitems, rfl⟩
  | set =>
    obtain ⟨kept'', hkept'', hseen'⟩ := distinctItems_of_items Value.same hitems
    obtain rfl := (firstSeen_of_pairwise hseen.pairwise).unique hseen'
    exact bind_eq_ok.2 ⟨_, hkept'', rfl⟩

/-! ### Lists and sets -/

/-- Whatever the items are, how they are compared and how they are converted, a set is refused exactly when the list is,
with the same error, and else holds the items of the list that are not the same as one kept before, in their order.  If
being the same is an equivalence, every item of the list is represented.  A set of texts is written as a list text that
is read as this set again. -/
theorem distinctItems_firstSeen {α : Type} (same : α → α → Bool) (convert : String → Except ConfigError α)
    (key raw : String) :
    (∀ e, distinctItems same convert key raw = .error e ↔ items convert key raw = .error e) ∧
    (∀ values, items convert key raw = .ok values →
      ∃ kept, distinctItems same convert key raw = .ok kept ∧
        FirstSeen same values kept ∧ (∀ kept', FirstSeen same values kept' → kept' = kept) ∧
        kept.Sublist values ∧
        kept.Pairwise (fun earlier later => same earlier later = false) ∧
        ((∀ x y, same x y = same y x) → kept.Pairwise fun earlier later => same later earlier = false) ∧
        (Equivalence (fun x y => same x y = true) → ∀ v ∈ values, ∃ k ∈ kept, same v k = true)) ∧
    (∀ c names v, Converter.builtin? .text = some c →
      Shape.set.decode key raw (c.convert names .text) = .ok v →
      ∃ texts : List String, v = .list (texts.map .text) ∧
        ∀ shape ≠ Shape.scalar, ∀ key', shape.decode key' (ListText.join texts) (c.convert names .text) = .ok v) := by
  refine ⟨fun e => distinctItems_eq_error_iff, fun values hvalues => ?_, fun c names v hc => ?_⟩
  · obtain ⟨kept, hkept, hseen⟩ := distinctItems_of_items same hvalues
    refine ⟨kept, hkept, hseen, fun kept' => hseen.unique, hseen.sublist, hseen.pairwise, fun hcomm => ?_,
      fun hequiv v hv => ?_⟩
    · exact hseen.pairwise.imp fun {earlier later} hne => (hcomm later earlier).trans hne
    · obtain ⟨k, hk, hsame⟩ := hseen.exists_same hv (hequiv.refl v)
      exact ⟨k, hk, hequiv.symm hsame⟩
  · obtain rfl := Option.some.inj hc
    exact exists_texts_of_decode_set fun token => rfl

/-- Names that count as the same if they are equally long, and names that are compared as texts. -/
theorem distinctItems_firstSeen_names :
    let same := fun s t : String => s.length == t.length
    (items .ok "names" "ab, c,de ,, ab" = .ok ["ab", "c", "de", "ab"] ∧
      distinctItems same .ok "names" "ab, c,de ,, ab" = .ok ["ab", "c"] ∧
      ∀ v ∈ ["ab", "c", "de", "ab"], ∃ k ∈ ["ab", "c"], same v k = true) ∧
    ∃ c, Converter.builtin? .text = some c ∧
      let v := Value.list [.text "ab", .text "c", .text "de"]
      Shape.set.decode "names" "ab, c,de ,, ab" (c.convert [] .text) = .ok v ∧
      ∃ texts : List String, v = .list (texts.map .text) ∧
        Shape.set.decode "names" (ListText.join texts) (c.convert [] .text) = .ok v := by
  intro same
  have hequiv : Equivalence fun s t => same s t = true := by
    refine ⟨fun s => beq_self_eq_true _, fun h => ?_, fun h h' => ?_⟩
    · exact beq_iff_eq.2 (beq_iff_eq.1 h).symm
    · exact beq_iff_eq.2 ((beq_iff_eq.1 h).trans (beq_iff_eq.1 h'))
  have hsplit : ListText.split "ab, c,de ,, ab" = some ["ab", "c", "de", "ab"] := by decide +kernel
  have hitems : items .ok "names" "ab, c,de ,, ab" = .ok ["ab", "c", "de", "ab"] := by
    rw [items, Shape.tokens, hsplit]
    rfl
  have hset : distinctItems same .ok "names" "ab, c,de ,, ab" = .ok ["ab", "c"] := by
    rw [distinctItems, Shape.tokens, hsplit]
    rfl
  have htext (c : Converter) (hc : Converter.builtin? .text = some c) :
      Shape.set.decode "names" "ab, c,de ,, ab" (c.convert [] .text) =
        .ok (.list [.text "ab", .text "c", .text "de"]) := by
    obtain rfl := Option.some.inj hc
    rw [decode, distinctItems, Shape.tokens, hsplit]
    rfl
  obtain ⟨-, hvalues, htexts⟩ := distinctItems_firstSeen same .ok "names" "ab, c,de ,, ab"
  obtain ⟨kept, hkept, -, -, -, -, -, hsame⟩ := hvalues _ hitems
  obtain rfl : ["ab", "c"] = kept := Except.ok.inj (hset.symm.trans hkept)
  obtain ⟨c, hc⟩ : ∃ c, Converter.builtin? .text = some c := ⟨_, rfl⟩
  obtain ⟨texts, hv, hagain⟩ := htexts c [] _ hc (htext c hc)
  exact ⟨⟨hitems, hset, hsame hequiv⟩, c, hc, htext c hc, texts, hv, hagain .set (by decide) "names"⟩

end LayeredConfig.Shape
