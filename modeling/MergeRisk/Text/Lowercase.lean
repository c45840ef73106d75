import MergeRisk.Text.LetterCase

/-! Lower case for all of Unicode: letter by letter, except that a capital sigma at the end of a
word becomes a final sigma and a dotted capital I keeps its dot. -/

namespace MergeRisk.Text

def CaseRange.covers (range : CaseRange) (code : Nat) : Bool :=
  range.first ≤ code && code ≤ range.last && (code - range.first) % range.step == 0

/-- The lower-case form of a character, out of context. -/
def lowerChar (c : Char) : List Char :=
  if c = 'İ' then ['i', Char.ofNat 0x307]
  else match lowercaseRanges.find? (·.covers c.toNat) with
  | some range => [Char.ofNat (c.toNat + range.forward - range.back)]
  | none => [c]

def isIn (ranges : List (Nat × Nat)) (c : Char) : Bool :=
  ranges.any fun (first, last) => first ≤ c.toNat && c.toNat ≤ last

def isCased (c : Char) : Bool := isIn casedRanges c

def isCaseIgnorable (c : Char) : Bool := isIn caseIgnorableRanges c

/-- Whether a cased character comes first, apart from characters without influence on case. -/
def startsCased (text : List Char) : Bool :=
  ((text.dropWhile isCaseIgnorable).head?).any isCased

/-- Lower a text, given the characters before it in reverse. -/
def lowerAfter (earlier : List Char) : List Char → List Char
  | [] => []
  | c :: text =>
    (if c = 'Σ' then
      [if startsCased earlier && !startsCased text then 'ς' else 'σ']
    else lowerChar c) ++ lowerAfter (c :: earlier) text

/-- The text in lower case. -/
def lowercase (text : String) : String :=
  String.ofList (lowerAfter [] text.toList)

end MergeRisk.Text
