import LayeredConfig.Proofs.Accessor.Conversion
import LayeredConfig.Proofs.Accessor.LookupChain
import LayeredConfig.Proofs.Accessor.Nesting
import LayeredConfig.Proofs.Template.References

/-!
# Defaults from texts

A default from a text is expanded and converted when the accessor is built, a configured value when it is read.  Both
ways give the same result for every text that does not become empty.  One that does is converted all the same by the
builder, but counts as absent in a read.  So the two ways agree if and only if the empty text gives what an absent
value gives (`value_textDefault`).  This is meant of texts whose references come to an end.
-/

namespace LayeredConfig

/-! ### Results that do not depend on the key -/

/-- The key of a text only shows in errors. -/
private theorem Shape.toOption_decode_key (shape : Shape) (key key' raw : String)
    (convert : String → Except ConfigError Value) :
    (shape.decode key raw convert).toOption = (shape.decode key' raw convert).toOption := by
  cases shape with
  | scalar =>
    rw [decode, decode]
    cases convert raw with
    | error e => rfl
    | ok v => rfl
  | list =>
    rw [decode, decode, items, items, tokens, tokens]
    cases ListText.split raw with
    | none => rfl
    | some tokens => rfl
  | set =>
    rw [decode, decode, distinctItems, distinctItems, tokens, tokens]
    cases ListText.split raw with
    | none => rfl
    | some tokens => rfl

namespace Accessor

variable {v v' : View} {r : Registry} {s : Settings} {suffixes : Suffixes} {key key' text d : String}

/-- The settings of an accessor for another key. -/
def Settings.forKey (s : Settings) (key : String) : Settings := { s with key }

private theorem toOption_decode_forKey (s : Settings) (r : Registry) (key key' raw : String) :
    (decode (s.forKey key) r raw).1.toOption = (decode (s.forKey key') r raw).1.toOption := by
  cases hconversion : s.conversion? r with
  | none =>
    have hdecode (key : String) : (decode (s.forKey key) r raw).1 = .error (.noConverter s.type.fullName) :=
      decode_of_no_conversion? (s := s.forKey key) hconversion raw
    rw [hdecode, hdecode]
  | some convert =>
    have hdecode (key : String) : (decode (s.forKey key) r raw).1 = s.shape.decode key raw convert :=
      decode_of_conversion? (s := s.forKey key) hconversion raw
    rw [hdecode, hdecode]
    exact s.shape.toOption_decode_key key key' raw convert

/-- An empty text gives what an absent value gives. -/
def Settings.IgnoresEmpty (s : Settings) (r : Registry) : Prop := (decode s r "").1.toOption = s.shape.absent

/-! ### The two ways -/

/-- Building an accessor with a default from a text, and reading it. -/
def valueWithTextDefault (v : View) (r : Registry) (a : Accessor) (d : String) : Except ConfigError Value :=
  let built := a.withTextDefault v r d
  match built.outcome with
  | .error e => .error e
  | .ok b => (b.value v built.registry).1

/-- None of the keys that the accessor looks up has a value. -/
def IsUndefined (v : View) (key : String) (suffixes : Suffixes) : Prop :=
  ∀ k ∈ candidates key suffixes.literals, v.present? k = none

/-- The first of the keys that the accessor looks up and that have a value holds the text. -/
def IsConfigured (v : View) (key : String) (suffixes : Suffixes) (d : String) : Prop :=
  ∃ tried k rest, candidates key suffixes.literals = tried ++ k :: rest ∧ (∀ t ∈ tried, v.present? t = none) ∧
    v.present? k = some d

private theorem value_of_literal (h : suffixes.all = []) (v : View) (r : Registry) (s : Settings) :
    ((mk s suffixes .fresh).value v r).1 =
      View.require s.key (result s r (lookup v s suffixes.literals).raw).1 := by
  have hpresent := Suffixes.presentSuffixes_of_literal h v r
  have hanswers := answers_of_presentSuffixes (a := mk s suffixes .fresh) (congrArg Present.outcome hpresent)
  have hkept : kept? v s .fresh = none := by
    rw [kept?]
    cases s.lifetime with
    | none => rfl
    | some lifetime => rfl
  have houtcome := hanswers.value hkept
  rw [show (mk s suffixes .fresh).suffixes = suffixes from rfl, hpresent] at houtcome
  rw [value, houtcome]
  rfl

private theorem require_map_some {α : Type} (key : String) (p : Except ConfigError α) :
    View.require key (p.map some) = p := by
  cases p with
  | error e => rfl
  | ok a => rfl

/-- The default of an undefined key is what the expanded text converts to, even if it is empty. -/
private theorem valueWithTextDefault_eq (hd : d ≠ "") (hliteral : suffixes.all = [])
    (hundefined : IsUndefined v s.key suffixes) :
    valueWithTextDefault v r (mk s suffixes .fresh) d = (decode s r (process v s d).text).1 := by
  have hnonempty : d.isEmpty = false := by simpa using hd
  rw [valueWithTextDefault, withTextDefault, hnonempty, if_neg Bool.false_ne_true]
  dsimp only [settings]
  generalize decode s r (process v s d).text = p
  obtain ⟨e | x, r'⟩ := p
  · rfl
  · show ((mk { s with default := some x } suffixes .fresh).value v r').1 = .ok x
    have hlookup := lookup_of_absent (s := { s with default := some x }) hundefined
    rw [value_of_literal hliteral, hlookup]
    rfl

/-- A configured text that becomes empty counts as absent. -/
private theorem value_of_isConfigured (hliteral : suffixes.all = []) (hdefault : s.default = none)
    (hconfigured : IsConfigured v s.key suffixes d) :
    ((mk s suffixes .fresh).value v r).1 =
      if (process v s d).text = "" then View.require s.key (.ok s.shape.absent)
      else (decode s r (process v s d).text).1 := by
  obtain ⟨tried, k, rest, hkeys, htried, hk⟩ := hconfigured
  rw [value_of_literal hliteral, lookup_of_present hkeys htried hk]
  dsimp only
  by_cases hempty : (process v s d).text = ""
  · rw [if_pos hempty, hempty, nonempty, if_pos (by rfl), result, hdefault, Option.none_or]
  · have hnonempty : (process v s d).text.isEmpty = false := by simpa using hempty
    rw [if_neg hempty, nonempty, hnonempty, if_neg Bool.false_ne_true, result]
    exact require_map_some _ _

/-- If all names that it refers to have the same values, a text becomes the same. -/
private theorem text_process_congr (h : s.expands = true → ∀ name, Template.Refers v.present? d name →
    v'.present? name = v.present? name) : (process v' s d).text = (process v s d).text := by
  unfold process
  by_cases hexpands : s.expands = true
  · rw [if_pos hexpands, if_pos hexpands]
    simp only [View.expand, Template.expand, Template.expand?_congr (h hexpands)]
  · rw [if_neg hexpands, if_neg hexpands]

/-- An accessor to an undefined key with a default from a text, and the accessor without default to a key that holds
this text: the builder or the read of the one converts the expanded text whatever it is, the read of the other one
only if it is not empty.  The results agree if and only if the expanded text is not empty or gives the same as none. -/
theorem value_textDefault (v v' : View) (r : Registry) (s : Settings) (suffixes : Suffixes) (key key' d : String)
    (hd : d ≠ "") (hdefault : s.default = none) (hliteral : suffixes.all = [])
    (hundefined : IsUndefined v key suffixes) (hconfigured : IsConfigured v' key' suffixes d)
    (hsame : s.expands = true → ∀ name, Template.Refers v.present? d name → v'.present? name = v.present? name) :
    let text := (process v s d).text
    let byDefault := valueWithTextDefault v r (mk (s.forKey key) suffixes .fresh) d
    let configured := ((mk (s.forKey key') suffixes .fresh).value v' r).1
    byDefault = (decode (s.forKey key) r text).1 ∧
    configured =
      (if text = "" then View.require key' (.ok s.shape.absent) else (decode (s.forKey key') r text).1) ∧
    (byDefault.toOption = configured.toOption ↔ text = "" → s.IgnoresEmpty r) := by
  intro text byDefault configured
  have hdefaultValue : byDefault = (decode (s.forKey key) r text).1 :=
    valueWithTextDefault_eq (s := s.forKey key) hd hliteral hundefined
  have hconfiguredValue : configured =
      if text = "" then View.require key' (.ok s.shape.absent) else (decode (s.forKey key') r text).1 := by
    have htext : (process v' (s.forKey key') d).text = text := text_process_congr (s := s.forKey key') hsame
    have hvalue := value_of_isConfigured (s := s.forKey key') (r := r) hliteral hdefault hconfigured
    rwa [htext] at hvalue
  refine ⟨hdefaultValue, hconfiguredValue, ?_⟩
  rw [hdefaultValue, hconfiguredValue]
  by_cases hempty : text = ""
  · have hrequire : (View.require key' (.ok s.shape.absent)).toOption = s.shape.absent := by
      cases s.shape with
      | scalar | list | set => rfl
    rw [if_pos hempty, hrequire, hempty, toOption_decode_forKey s r key s.key]
    exact ⟨fun h _ => h, fun h => h rfl⟩
  · rw [if_neg hempty, toOption_decode_forKey s r key key']
    exact iff_of_true rfl fun h => absurd h hempty

/-- An engine with a value for one key. -/
def viewOf (key value : String) : View := ⟨fun k => if k = key then some value else none, 0, 0⟩

/-- Settings that tell nothing but a type and whether references are replaced. -/
def Settings.plain (t : ValueType) (expands : Bool) : Settings := { (start "").settings with type := t, expands }

/-- An engine with a port, and maybe with a value for another key. -/
def portView (configured : Option String) : View :=
  ⟨fun k => if k = "port" then some "8080" else if k = "configured" then configured else none, 0, 0⟩

/-- A reference to the port becomes the port, whatever the other key holds. -/
private theorem expand?_port (configured : Option String) :
    Template.expand? (portView configured).present? "$\x7bport\x7d" =
      some ⟨"8080".toList, false, [.asked 0 "port", .substituted 0]⟩ := by
  have hvalue : Template.Replacement.expanded (portView configured).present? Template.maxDepth Template.maxSubstitutions
      (.value "8080") = ⟨"8080".toList, false, Template.maxSubstitutions, [], Nat.le_refl _⟩ := by
    show Template.expandValue (portView configured).present? (31 + 1) _ [] _ = _
    rw [Template.expandValue_succ]
    with_unfolding_all rfl
  have hturn : (Template.Progress.start "$\x7bport\x7d").turn (portView configured).present? =
      .more ⟨[], "8080".toList, [.asked 0 "port", .substituted 0]⟩ := by
    have hscan : Template.scan (portView configured).present? "$\x7bport\x7d".toList =
        ⟨[], ["port"], some (⟨[], "port".toList, []⟩, .value "8080")⟩ := by
      with_unfolding_all rfl
    unfold Template.Progress.turn
    dsimp only [Template.Progress.start]
    rw [hscan]
    dsimp only
    rw [hvalue]
    rfl
  have hlast : (Template.Progress.mk [] "8080".toList [.asked 0 "port", .substituted 0]).turn
      (portView configured).present? = .last ⟨"8080".toList, false, [.asked 0 "port", .substituted 0]⟩ := by
    with_unfolding_all rfl
  rw [Template.expand?, Template.Progress.finish?_of_more hturn, Template.Progress.finish?_of_last hlast]

/-- A text that refers to a port gives that port in both ways. -/
theorem value_textDefault_port :
    let s := Settings.plain (.whole .u16) true
    let byDefault :=
      valueWithTextDefault (portView none) (.standard []) (mk (s.forKey "undefined") .nil .fresh) "$\x7bport\x7d"
    let configured :=
      ((mk (s.forKey "configured") .nil .fresh).value (portView (some "$\x7bport\x7d")) (.standard [])).1
    byDefault.toOption = configured.toOption ∧ configured = .ok (.whole 8080) := by
  intro s byDefault configured
  have hundefined : IsUndefined (portView none) "undefined" .nil := by
    intro k hk
    obtain rfl := List.mem_singleton.1 hk
    rfl
  have hconfigured : IsConfigured (portView (some "$\x7bport\x7d")) "configured" .nil "$\x7bport\x7d" :=
    ⟨[], "configured", [], rfl, by simp, rfl⟩
  -- The text refers to the port only, which both have.
  have hsame (name : String) (hname : Template.Refers (portView none).present? "$\x7bport\x7d" name) :
      (portView (some "$\x7bport\x7d")).present? name = (portView none).present? name := by
    obtain rfl := List.mem_singleton.1 ((Template.refers_iff_of_expand? (expand?_port none)).1 hname)
    rfl
  have htext : (process (portView none) s "$\x7bport\x7d").text = "8080" := by
    show ((portView none).expand "$\x7bport\x7d").text = "8080"
    rw [View.expand, Template.expand, expand?_port]
    rfl
  obtain ⟨-, hvalue, hagree⟩ := value_textDefault (portView none) (portView (some "$\x7bport\x7d")) (.standard []) s .nil
    "undefined" "configured" "$\x7bport\x7d" (by decide) rfl rfl hundefined hconfigured fun _ => hsame
  rw [htext] at hvalue hagree
  refine ⟨hagree.2 fun h => absurd h (by decide), hvalue.trans ?_⟩
  rw [if_neg (by decide)]
  with_unfolding_all rfl
/-- A text that becomes empty is a default, but no value of a key. -/
theorem ne_value_textDefault_unset :
    let v := viewOf "configured" "$\x7bunset:\x7d"
    let s := Settings.plain .text true
    valueWithTextDefault v (.standard []) (mk (s.forKey "undefined") .nil .fresh) "$\x7bunset:\x7d" = .ok (.text "") ∧
      ((mk (s.forKey "configured") .nil .fresh).value v (.standard [])).1 = .error (.notFound "configured") := by
  have hturn : (Template.Progress.start "$\x7bunset:\x7d").turn (viewOf "configured" "$\x7bunset:\x7d").present? =
      .more ⟨[], [], [.asked 0 "unset", .substituted 0]⟩ := by
    with_unfolding_all rfl
  have hlast : (Template.Progress.mk [] [] [.asked 0 "unset", .substituted 0]).turn
      (viewOf "configured" "$\x7bunset:\x7d").present? = .last ⟨[], false, [.asked 0 "unset", .substituted 0]⟩ := by
    with_unfolding_all rfl
  have hexpand : (viewOf "configured" "$\x7bunset:\x7d").expand "$\x7bunset:\x7d" = ⟨"", ["unset"]⟩ := by
    rw [View.expand, Template.expand, Template.expand?, Template.Progress.finish?_of_more hturn,
      Template.Progress.finish?_of_last hlast]
    rfl
  intro v s
  have hprocess (key : String) : process v (s.forKey key) "$\x7bunset:\x7d" = ⟨"", ["unset"]⟩ := hexpand
  have hundefined : IsUndefined v "undefined" .nil := by
    intro k hk
    obtain rfl := List.mem_singleton.1 hk
    rfl
  have hconfigured : IsConfigured v "configured" .nil "$\x7bunset:\x7d" := ⟨[], "configured", [], rfl, by simp, rfl⟩
  constructor
  · rw [valueWithTextDefault_eq (s := s.forKey "undefined") (by decide) rfl hundefined, hprocess]
    rfl
  · rw [value_of_isConfigured (s := s.forKey "configured") rfl rfl hconfigured, hprocess]
    rfl

end Accessor

end LayeredConfig
