import LayeredConfig.Duration
import LayeredConfig.Instant
import LayeredConfig.ListText
import LayeredConfig.Number.Decimal
import LayeredConfig.Path
import LayeredConfig.Text.Quoted
import LayeredConfig.Url
import LayeredConfig.ValueType

/-!
# Values

What configuration texts are read as.  Two values may be the same without being equal: the two zeros, and paths
with the same components; not-a-number is not even the same as itself.  The key fact: away from floating-point
numbers every value is the same as itself (`same_self`).
-/

namespace LayeredConfig

/-- A value of some type. -/
inductive Value where
  | text (s : String)
  | bool (b : Bool)
  | char (c : Char)
  | whole (n : Int)
  | float (format : BinaryFormat) (x : Binary)
  | duration (d : Duration)
  | instant (t : Instant)
  | url (u : Url)
  | path (p : String)
  | typeRef (t : ValueType)
  | custom (typeName text : String)
  | list (items : List Value)

namespace Value

mutual

/-- Whether two values of one type are the same. -/
def same : Value → Value → Bool
  | text s, text t => s == t
  | bool a, bool b => a == b
  | char c, char d => c == d
  | whole m, whole n => m == n
  | float f x, float g y => f == g && Binary.same x y
  | duration d, duration e => d == e
  | instant t, instant u => t == u
  | url u, url v => u.render == v.render
  | path p, path q => Path.same p q
  | typeRef s, typeRef t => s == t
  | custom m s, custom n t => m == n && s == t
  | list xs, list ys => sameItems xs ys
  | _, _ => false

/-- Whether two lists hold the same values in the same order. -/
def sameItems : List Value → List Value → Bool
  | [], [] => true
  | x :: xs, y :: ys => same x y && sameItems xs ys
  | _, _ => false

end

mutual

/-- The text of a value; a list is written as a list text. -/
def render : Value → String
  | text s => s
  | bool b => toString b
  | char c => c.toString
  | whole n => toString n
  | float f x => Decimal.render f x
  | duration d => d.render
  | instant t => t.render
  | url u => u.render
  | path p => p
  | typeRef t => t.fullName
  | custom _ s => s
  | list items => ListText.join (renderItems items)

/-- The texts of several values. -/
def renderItems : List Value → List String
  | [] => []
  | x :: xs => render x :: renderItems xs

end

/-- The text of an optional value in a listing. -/
private def optional (o : Option String) : String :=
  match o with
  | none => "None"
  | some s => "Some(" ++ s ++ ")"

private def inspectHost : Url.Host → String
  | .domain name => "Domain(" ++ Text.quoted name ++ ")"
  | .ipv4 address => "Ipv4(" ++ (Url.Host.ipv4 address).bare ++ ")"
  | .ipv6 pieces => "Ipv6(" ++ (Url.Host.ipv6 pieces).bare ++ ")"

private def inspectUrl (u : Url) : String :=
  "Url \x7b scheme: " ++ Text.quoted u.scheme
    ++ ", cannot_be_a_base: " ++ toString (!u.hasAuthority && u.path.toList.head? != some '/')
    ++ ", username: " ++ Text.quoted u.username
    ++ ", password: " ++ optional (u.password.map Text.quoted)
    ++ ", host: " ++ optional (u.host.map inspectHost)
    ++ ", port: " ++ optional (u.port.map toString)
    ++ ", path: " ++ Text.quoted u.path
    ++ ", query: " ++ optional (u.query.map Text.quoted)
    ++ ", fragment: " ++ optional (u.fragment.map Text.quoted) ++ " \x7d"

mutual

/-- A value in a listing that shows its parts. -/
def inspect : Value → String
  | text s => Text.quoted s
  | bool b => toString b
  | char c => Text.quotedChar c
  | whole n => toString n
  | float f x => Decimal.inspect f x
  | duration d => d.render
  | instant t => t.civil ++ "Z"
  | url u => inspectUrl u
  | path p => Text.quoted p
  | typeRef t => "TypeRef \x7b name: " ++ Text.quoted t.fullName ++ " \x7d"
  | custom name s => TypeName.short name ++ "(" ++ Text.quoted s ++ ")"
  | list items => "[" ++ String.intercalate ", " (inspectItems items) ++ "]"

/-- Several values in a listing. -/
def inspectItems : List Value → List String
  | [] => []
  | x :: xs => inspect x :: inspectItems xs

end

/-- Whether two optional values are both absent or the same. -/
def sameOptional : Option Value → Option Value → Bool
  | none, none => true
  | some x, some y => same x y
  | _, _ => false

mutual

/-- Whether a value is built without floating-point numbers. -/
def isExact : Value → Bool
  | float _ _ => false
  | list items => areExact items
  | _ => true

/-- Whether several values are built without floating-point numbers. -/
def areExact : List Value → Bool
  | [] => true
  | x :: xs => isExact x && areExact xs

end

mutual

theorem same_self {x : Value} (h : isExact x = true) : same x x = true := by
  cases x with
  | list items =>
    rw [isExact] at h
    rw [same]
    exact sameItems_self h
  | float f x => simp [isExact] at h
  | path p => exact Path.same_refl p
  | _ => simp [same]

theorem sameItems_self {xs : List Value} (h : areExact xs = true) : sameItems xs xs = true := by
  cases xs with
  | nil => rfl
  | cons x xs =>
    rw [areExact, Bool.and_eq_true] at h
    rw [sameItems, Bool.and_eq_true]
    exact ⟨same_self h.1, sameItems_self h.2⟩

end

mutual

theorem same_comm (x y : Value) : same x y = same y x := by
  cases x with
  | list xs =>
    cases y with
    | list ys => rw [same, same, sameItems_comm]
    | _ => rfl
  | float f x =>
    cases y with
    | float g y => rw [same, same, Binary.same_comm, Bool.beq_comm]
    | _ => rfl
  | _ =>
    cases y with
    | path q => first | rfl | exact Path.same_comm _ _
    | _ => first | rfl | simp only [same, Bool.beq_comm]

theorem sameItems_comm (xs ys : List Value) : sameItems xs ys = sameItems ys xs := by
  cases xs with
  | nil =>
    cases ys with
    | nil => rfl
    | cons y ys => rfl
  | cons x xs =>
    cases ys with
    | nil => rfl
    | cons y ys => rw [sameItems, sameItems, same_comm x y, sameItems_comm xs ys]

end

end Value

end LayeredConfig
