import LayeredConfig.Proofs.Accessor.Direct
import LayeredConfig.Proofs.ListText
import LayeredConfig.Proofs.Registry.Current

/-!
# Two ways to a list

A list can be read through an accessor of its items, which uses the converter that the items have at the moment, or
from the engine as a value of the type of lists.  The engine uses the converter that the items had when the list was
discovered, and never looks for another one.  So the two ways agree on all texts exactly when both converters read
every item alike (`list_reads`).
-/

namespace LayeredConfig

open Text (trimmed)

/-! ### Reading items -/

/-- The items of a list text, read one by one. -/
def Converter.readItems (names : TypeNames) (t : ValueType) (c : Converter) (raw : String) : Option (List Value) :=
  (ListText.split raw).bind fun tokens => tokens.mapM fun token => (c.convert names t token).toOption

private theorem toOption_mapM {α β ε : Type} (f : α → Except ε β) (l : List α) :
    (l.mapM f).toOption = l.mapM fun a => (f a).toOption := by
  induction l with
  | nil => rfl
  | cons a l ih =>
    rw [List.mapM_cons, List.mapM_cons, ← ih]
    cases f a with
    | error e => rfl
    | ok b =>
      cases l.mapM f with
      | error e => rfl
      | ok bs => rfl

theorem mapM_congr_mem {m : Type → Type} [Monad m] [LawfulMonad m] {α β : Type} {f g : α → m β} {l : List α}
    (h : ∀ a ∈ l, f a = g a) : l.mapM f = l.mapM g := by
  induction l with
  | nil => rfl
  | cons a l ih =>
    rw [List.forall_mem_cons] at h
    rw [List.mapM_cons, List.mapM_cons, h.1, ih h.2]

/-- A text that an item of a list can be: there is nothing to trim, and it is not empty. -/
def ListText.IsItem (token : String) : Prop := trimmed token = token ∧ token ≠ ""

theorem ListText.isItem_of_mem_split {raw token : String} {tokens : List String} (h : split raw = some tokens)
    (htoken : token ∈ tokens) : IsItem token := by
  obtain ⟨htrimmed, hempty⟩ := trimmed_of_mem_split h htoken
  refine ⟨htrimmed, ?_⟩
  rintro rfl
  nomatch hempty

/-- Such texts can be written as a list, which then has no other items. -/
theorem ListText.split_join_of_isItem {items : List String} (h : ∀ item ∈ items, IsItem item) :
    split (join items) = some items := by
  have htrimmed : items.map trimmed = items :=
    (List.map_congr_left fun item hitem => (h item hitem).1).trans (List.map_id' items)
  have hnonempty : items.filter (fun item => !item.isEmpty) = items := by
    rw [List.filter_eq_self]
    intro item hitem
    simpa using (h item hitem).2
  rw [split_join_trimmed, htrimmed, hnonempty]

private theorem ListText.IsItem.split_join_singleton {token : String} (h : IsItem token) :
    split (join [token]) = some [token] :=
  split_join_of_isItem fun item hitem => by
    obtain rfl := List.mem_singleton.1 hitem
    exact h

private theorem ListText.IsItem.join_ne_empty {token : String} (h : IsItem token) : join [token] ≠ "" := by
  intro hempty
  have hsplit := h.split_join_singleton
  rw [hempty] at hsplit
  nomatch hsplit

private theorem Converter.toOption_convert_list (names : TypeNames) (t : ValueType) (item : Converter) (raw : String) :
    ((Converter.list t item).convert names (.list t) raw).toOption = (item.readItems names t raw).map .list := by
  rw [convert, run, readItems]
  cases ListText.split raw with
  | none => rfl
  | some tokens =>
    dsimp only
    have hitems : (tokens.mapM fun token => settle item.target t token (run names item token)).toOption =
        tokens.mapM fun token => (item.convert names t token).toOption := toOption_mapM _ tokens
    rw [Option.bind_some, ← hitems]
    cases tokens.mapM fun token => settle item.target t token (run names item token) with
    | error e => rfl
    | ok values => exact congrArg Except.toOption (if_pos rfl)

private theorem Shape.toOption_decode_list (names : TypeNames) (t : ValueType) (c : Converter) (key raw : String) :
    (Shape.list.decode key raw (c.convert names t)).toOption = (c.readItems names t raw).map .list := by
  rw [Shape.decode, Shape.items, Shape.tokens, Converter.readItems]
  cases ListText.split raw with
  | none => rfl
  | some tokens =>
    have hitems := toOption_mapM (c.convert names t) tokens
    dsimp only [Option.bind_some]
    rw [← hitems]
    show Except.toOption (tokens.mapM (c.convert names t) >>= fun values => Except.ok (Value.list values)) = _
    cases tokens.mapM (c.convert names t) with
    | error e => rfl
    | ok values => rfl

/-- Two converters read all lists alike if and only if they read all items alike. -/
private theorem Converter.readItems_eq_iff {names names' : TypeNames} {t : ValueType} {c c' : Converter} :
    (∀ raw, raw ≠ "" → c.readItems names t raw = c'.readItems names' t raw) ↔
      ∀ token, ListText.IsItem token → (c.convert names t token).toOption = (c'.convert names' t token).toOption := by
  refine ⟨fun h token htoken => ?_, fun h raw _ => ?_⟩
  -- The list of one item tells what becomes of the item.
  · have hone (c : Converter) (names : TypeNames) :
        c.readItems names t (ListText.join [token]) = (c.convert names t token).toOption.map ([·]) := by
      rw [readItems, htoken.split_join_singleton, Option.bind_some, List.mapM_cons, List.mapM_nil]
      cases (c.convert names t token).toOption with
      | none => rfl
      | some value => rfl
    have hlists := h _ htoken.join_ne_empty
    rw [hone, hone] at hlists
    exact Option.map_injective (fun _ _ heq => (List.cons.inj heq).1) hlists
  · cases hsplit : ListText.split raw with
    | none => rw [readItems, readItems, hsplit, Option.bind_none, Option.bind_none]
    | some tokens =>
      rw [readItems, readItems, hsplit, Option.bind_some, Option.bind_some]
      exact mapM_congr_mem fun token htoken => h token (ListText.isItem_of_mem_split hsplit htoken)

/-! ### The two ways -/

private theorem View.toOption_require {α : Type} (key : String) (p : Except ConfigError α) :
    (View.require key (p.map some)).toOption = p.toOption := by
  cases p with
  | error e => rfl
  | ok a => rfl

private theorem View.ne_empty_of_present? {v : View} {key raw : String} (h : v.present? key = some raw) : raw ≠ "" := by
  rintro rfl
  obtain ⟨-, hempty⟩ := Option.filter_eq_some_iff.1 h
  nomatch hempty

namespace Registry

variable {r : Registry} {t : ValueType}

private theorem value_of_isDirect_list {key raw : String} {a : Accessor} (h : a.IsDirect key t .list) {v : View}
    (hraw : v.present? key = some raw) :
    (a.value v r).1.toOption =
      ((r.current? t).bind fun c => c.readItems (r.resolve t).2.names t raw).map .list := by
  rw [h.value_eq, hraw]
  show (View.require key ((Accessor.decode (.direct key t .list) r raw).1.map some)).toOption = _
  rw [View.toOption_require, Accessor.decode, Accessor.Settings.direct, current?]
  dsimp only
  generalize r.resolve t = p
  obtain ⟨_ | c, r'⟩ := p
  · rfl
  · exact Shape.toOption_decode_list r'.names t c key raw

/-- What a list is read with, when no converter is registered for it. -/
private theorem current?_list (hactive : r.active? (.list t) = none) :
    r.current? (.list t) = (r.discovered.lookup (.list t)).or ((r.current? t).map (.list t)) := by
  rw [current?_eq, hactive]
  rfl

private theorem value_of_list {key raw : String} {v : View} (hraw : v.present? key = some raw) {item : Option Converter}
    (hitem : r.current? (.list t) = item.map (.list t)) :
    (v.value r (.list t) key).1.toOption =
      (item.bind fun c => c.readItems (r.resolve (.list t)).2.names t raw).map .list := by
  show (View.require key ((r.convert (.list t) (v.present? key)).1.mapError (ConfigError.forKey key))).toOption = _
  rw [hraw, convert]
  rw [current?] at hitem
  generalize r.resolve (.list t) = p at hitem
  obtain ⟨e | c, r'⟩ := p
  · cases item with
    | none => rfl
    | some c => cases hitem
  · cases item with
    | none => cases hitem
    | some i =>
      obtain rfl : c = .list t i := Option.some.inj hitem
      dsimp only
      rw [Option.bind_some, ← Converter.toOption_convert_list]
      cases (Converter.list t i).convert r'.names (.list t) raw with
      | error e => rfl
      | ok value => rfl

/-- A list is not looked for in a registry that nobody registered it with. -/
private theorem active?_after_eq_none (customTypes : List CustomType) (builtins : Bool) {history : List Call}
    {t : ValueType} (hlist : offers (.list t) history = []) :
    ((initial customTypes builtins).after history).active? (.list t) = none := by
  rw [tracks_after customTypes builtins history (.list t), expected?, contenders, hlist]
  cases builtins with
  | false => rfl
  | true => rfl

/-- The two ways agree if and only if they make the same of every text that is not empty. -/
private theorem agree_iff_of_reads {f g : String → Option (List Value)}
    (h : ∀ v key raw (a : Accessor), v.present? key = some raw → a.IsDirect key t .list →
      (a.value v r).1.toOption = (f raw).map .list ∧ (v.value r (.list t) key).1.toOption = (g raw).map .list) :
    (∀ v key raw (a : Accessor), v.present? key = some raw → a.IsDirect key t .list →
      (a.value v r).1.toOption = (v.value r (.list t) key).1.toOption) ↔ ∀ raw, raw ≠ "" → f raw = g raw := by
  refine ⟨fun hagree raw hraw => ?_, fun hsame v key raw a hraw ha => ?_⟩
  · have hpresent : (View.mk (fun _ => some raw) 0 0).present? "" = some raw := by
      simpa [View.present?, Option.filter] using hraw
    have hdirect : (Accessor.mk (.direct "" t .list) .nil .fresh).IsDirect "" t .list := ⟨_, rfl⟩
    obtain ⟨haccessor, hengine⟩ := h _ "" raw _ hpresent hdirect
    have hsame := hagree _ "" raw _ hpresent hdirect
    rw [haccessor, hengine] at hsame
    exact Option.map_injective (fun _ _ => Value.list.inj) hsame
  · obtain ⟨haccessor, hengine⟩ := h v key raw a hraw ha
    rw [haccessor, hengine, hsame raw (View.ne_empty_of_present? hraw)]

/-- After any calls on a new registry, with no converter registered for the lists themselves, an accessor reads the
items of a list with the converter that they have now, and the engine with the one that they had when the list was
discovered.  The two agree on all lists if and only if both converters read all items alike, each with the names of
types that it finds. -/
theorem list_reads (customTypes : List CustomType) (builtins : Bool) (history : List Call) (t : ValueType)
    (hlist : offers (.list t) history = []) :
    let r := (initial customTypes builtins).after history
    let current := r.current? t
    let kept := (captured? t (initial customTypes builtins) history).or current
    (∀ v key, ∃ a, Accessor.build v r key [.expands false, .type t, .list] = ⟨.ok a, r, []⟩ ∧
      a.IsDirect key t .list) ∧
    (∀ v key raw (a : Accessor), v.present? key = some raw → a.IsDirect key t .list →
      (a.value v r).1.toOption = (current.bind fun c => c.readItems (r.resolve t).2.names t raw).map .list ∧
      (v.value r (.list t) key).1.toOption =
        (kept.bind fun c => c.readItems (r.resolve (.list t)).2.names t raw).map .list) ∧
    ((∀ v key raw (a : Accessor), v.present? key = some raw → a.IsDirect key t .list →
        (a.value v r).1.toOption = (v.value r (.list t) key).1.toOption) ↔
      ∀ token, ListText.IsItem token →
        (current.bind fun c => (c.convert (r.resolve t).2.names t token).toOption) =
          kept.bind fun c => (c.convert (r.resolve (.list t)).2.names t token).toOption) := by
  intro r current kept
  have hitem : r.current? (.list t) = kept.map (.list t) := by
    rw [current?_list (active?_after_eq_none customTypes builtins hlist), lookup_discovered_after, discovered_initial,
      List.lookup_nil, Option.none_or, ← Option.map_or]
  have hreads : ∀ v key raw (a : Accessor), v.present? key = some raw → a.IsDirect key t .list →
      (a.value v r).1.toOption = (current.bind fun c => c.readItems (r.resolve t).2.names t raw).map .list ∧
      (v.value r (.list t) key).1.toOption =
        (kept.bind fun c => c.readItems (r.resolve (.list t)).2.names t raw).map .list :=
    fun v key raw a hraw ha => ⟨value_of_isDirect_list ha hraw, value_of_list hraw hitem⟩
  refine ⟨fun v key => ⟨_, rfl, .fresh, rfl⟩, hreads, (agree_iff_of_reads hreads).trans ?_⟩
  cases hcurrent : current with
  | some c =>
    obtain ⟨c', hkept⟩ : ∃ c', kept = some c' := by
      rw [← Option.isSome_iff_exists, Option.isSome_or, hcurrent, Option.isSome_some, Bool.or_true]
    rw [hkept]
    exact Converter.readItems_eq_iff
  | none =>
    have hkept : kept = none := Option.or_eq_none_iff.2 ⟨captured?_eq_none hcurrent, hcurrent⟩
    rw [hkept]
    exact ⟨fun _ _ _ => rfl, fun _ _ _ => rfl⟩

/-- A converter that reads every text alike. -/
def rewording : Call := .register ⟨.text, .reading .text fun _ => .ok (.text "new"), 100, none⟩

/-- Lists that are discovered after it was registered are read alike in both ways. -/
theorem list_reads_rewording :
    let r := (initial [] true).after [.has .text, rewording, .has (.list .text)]
    ∀ v key raw (a : Accessor), v.present? key = some raw → a.IsDirect key .text .list →
      (a.value v r).1.toOption = (v.value r (.list .text) key).1.toOption :=
  (list_reads [] true [.has .text, rewording, .has (.list .text)] .text rfl).2.2.2 fun _ _ => rfl

/-- Lists that were discovered before go on being read as they were, and are not read with the converter that their
items have now. -/
theorem ne_list_read_rewording :
    ∃ (v : View) (a : Accessor), v.present? "hosts" = some "old" ∧ a.IsDirect "hosts" .text .list ∧
      (a.value v ((initial [] true).after [.has (.list .text), rewording])).1 = .ok (.list [.text "new"]) ∧
      (v.value ((initial [] true).after [.has (.list .text), rewording]) (.list .text) "hosts").1 =
        .ok (.list [.text "old"]) :=
  ⟨⟨fun _ => some "old", 0, 0⟩, .mk (.direct "hosts" .text .list) .nil .fresh, rfl, ⟨_, rfl⟩, rfl, rfl⟩

end Registry

end LayeredConfig
