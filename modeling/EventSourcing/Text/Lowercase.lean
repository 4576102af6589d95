import EventSourcing.Text.CaseTable

/-!
Lower-casing by the full Unicode mapping. Two rules go beyond a table of single characters: a
capital I with a dot becomes an i followed by a combining dot, and a capital sigma that ends a
word becomes a final sigma.
-/

namespace EventSourcing.Text

def capitalSigma : Char := Char.ofNat 0x3a3

def finalSigma : Char := Char.ofNat 0x3c2

/-- The lower-case form of one character, wherever it stands. -/
def lowerChar (c : Char) : List Char :=
  if c.toNat = 0x130 then ['i', Char.ofNat 0x307]
  else match caseRuns.findSome? (·.map? c.toNat) with
    | some n => [Char.ofNat n]
    | none => [c]

/-- Whether the nearest character that is not ignorable is a cased one. -/
def casedFirst (cs : List Char) : Bool :=
  match cs.dropWhile isCaseIgnorable with
  | c :: _ => isCased c
  | [] => false

/-- `before` holds the characters already passed, nearest first. -/
def lowerFrom (before : List Char) : List Char → List Char
  | [] => []
  | c :: rest =>
    let form :=
      if c = capitalSigma ∧ casedFirst before ∧ ¬ casedFirst rest then [finalSigma] else lowerChar c
    form ++ lowerFrom (c :: before) rest

def lowercase (s : String) : String := String.ofList (lowerFrom [] s.toList)

end EventSourcing.Text
