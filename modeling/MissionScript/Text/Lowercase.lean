import MissionScript.Text.CaseRuns
import MissionScript.Text.Cased

/-!
Lowercase forms of texts. Each letter is mapped on its own, but for the capital sigma, which
becomes the final sigma at the end of a word.
-/

namespace MissionScript.Text

/-- The lowercase form of one character, sigma taken as inside a word. The capital I with a dot
    above keeps its dot as a combining character. -/
def lowerChar (c : Char) : List Char :=
  if c.toNat < 128 then [c.toLower]
  else if c.toNat = 0x130 then ['i', Char.ofNat 0x307]
  else [(caseRuns.findSome? fun run => run.lower? c.toNat).elim c Char.ofNat]

/-- Whether the first character that is not to be ignored is a cased letter. -/
def startsCased (s : List Char) : Bool :=
  ((s.dropWhile isCaseIgnorable).head?).any isCased

/-- The lowercase form of the rest of a text, where `before` is what was read of it, last
    character first. -/
def lowerFrom (before : List Char) : List Char → List Char
  | [] => []
  | c :: rest =>
    let small := if c.toNat = 0x3A3 ∧ startsCased before ∧ ¬startsCased rest then [Char.ofNat 0x3C2]
      else lowerChar c
    small ++ lowerFrom (c :: before) rest

/-- The lowercase form of a text. -/
def lowercase (s : String) : String :=
  String.ofList (lowerFrom [] s.toList)

end MissionScript.Text
