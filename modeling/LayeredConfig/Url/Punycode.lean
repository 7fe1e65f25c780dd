/-!
# Punycode

Labels of a domain name written in ASCII: the ASCII characters as they stand, a hyphen, and the others as steps
through all pairs of a code point and a position, each step a number with digits of varying weight.
-/

namespace LayeredConfig.Url.Punycode

private def base : Nat := 36
private def lowThreshold : Nat := 1
private def highThreshold : Nat := 26
private def skew : Nat := 38
private def firstDamp : Nat := 700
private def startBias : Nat := 72
private def startCode : Nat := 128

/-- Divides `delta` until it is small, and counts the divisions. -/
private def settle (k delta : Nat) : Nat → Nat × Nat
  | 0 => (k, delta)
  | fuel + 1 =>
    if (base - lowThreshold) * highThreshold / 2 < delta then settle (k + base) (delta / (base - lowThreshold)) fuel
    else (k, delta)

/-- The bias for the next step after one of `delta`. -/
private def adapt (delta points : Nat) (first : Bool) : Nat :=
  let delta := if first then delta / firstDamp else delta / 2
  let p := settle 0 (delta + delta / points) (delta + delta / points)
  p.1 + (base - lowThreshold + 1) * p.2 / (p.2 + skew)

private def threshold (k bias : Nat) : Nat :=
  if k ≤ bias + lowThreshold then lowThreshold else if bias + highThreshold ≤ k then highThreshold else k - bias

private def digitChar (d : Nat) : Char :=
  if d < 26 then Char.ofNat ('a'.toNat + d) else Char.ofNat ('0'.toNat + (d - 26))

/-- The digits of a step, least significant first. -/
private def stepDigits (k q bias : Nat) : Nat → List Char
  | 0 => []
  | fuel + 1 =>
    let t := threshold k bias
    if q < t then [digitChar q]
    else digitChar (t + (q - t) % (base - t)) :: stepDigits (k + base) ((q - t) / (base - t)) bias fuel

private structure State where
  delta : Nat
  bias : Nat
  handled : Nat
  output : List Char

/-- The steps for the code point `code`, over all characters of the label. -/
private def encodeCode (basicCount code : Nat) (s : State) : List Nat → State
  | [] => s
  | c :: cs =>
    if c < code then encodeCode basicCount code { s with delta := s.delta + 1 } cs
    else if c = code then
      encodeCode basicCount code
        { delta := 0
          bias := adapt s.delta (s.handled + 1) (s.handled == basicCount)
          handled := s.handled + 1
          output := s.output ++ stepDigits base s.delta s.bias (s.delta + 1) } cs
    else encodeCode basicCount code s cs

/-- The steps for all code points from `code` on, `fuel` of them at most. -/
private def encodeCodes (basicCount : Nat) (codes : List Nat) (code : Nat) (s : State) : Nat → State
  | 0 => s
  | fuel + 1 =>
    match (codes.filter (code ≤ ·)).min? with
    | none => s
    | some next =>
      let s := encodeCode basicCount next { s with delta := s.delta + (next - code) * (s.handled + 1) } codes
      encodeCodes basicCount codes (next + 1) { s with delta := s.delta + 1 } fuel

/-- The ASCII form of a label. -/
def encode (label : List Char) : List Char :=
  let basic := label.filter (·.toNat < 128)
  let start : State := ⟨0, startBias, basic.length, if basic.isEmpty then [] else basic ++ ['-']⟩
  (encodeCodes basic.length (label.map Char.toNat) startCode start label.length).output

private def digitValue? (c : Char) : Option Nat :=
  if c.isDigit then some (c.toNat - '0'.toNat + 26)
  else if c.isAlpha then some (c.toLower.toNat - 'a'.toNat)
  else none

/-- A step read from the digits, and the digits after it. -/
private def readStep (k weight total bias : Nat) : List Char → Option (Nat × List Char)
  | [] => none
  | c :: cs =>
    (digitValue? c).bind fun d =>
      let t := threshold k bias
      let total := total + d * weight
      if d < t then some (total, cs) else readStep (k + base) (weight * (base - t)) total bias cs

private def decodeSteps (code position bias : Nat) (output : List Char) (cs : List Char) : Nat → Option (List Char)
  | 0 => none
  | fuel + 1 =>
    if cs.isEmpty then some output
    else
      (readStep base 1 0 bias cs).bind fun (step, rest) =>
        let count := output.length + 1
        let total := position + step
        let code := code + total / count
        let place := total % count
        if h : code.isValidChar then
          decodeSteps code (place + 1) (adapt step count (position == 0 && code != 0 && output.all (·.toNat < 128)))
            (output.take place ++ Char.ofNatAux code h :: output.drop place) rest fuel
        else none

/-- The label with a given ASCII form. -/
def decode? (cs : List Char) : Option (List Char) :=
  let reversed := cs.reverse
  let tail := (reversed.takeWhile (· ≠ '-')).reverse
  let basic := if tail.length = cs.length then [] else cs.take (cs.length - tail.length - 1)
  decodeSteps startCode 0 startBias basic tail (cs.length + 1)

end LayeredConfig.Url.Punycode
