/-
  LedgerQuery.Text.Lowercase

  Text in lower case by the full Unicode mapping: a character may become two, and a capital sigma
  becomes a final sigma at the end of a word, that is after a cased letter and not before one,
  characters that the property Case_Ignorable names not counted.
-/
import LedgerQuery.Text.CaseTable

namespace LedgerQuery.Lowercase

def inRanges (ranges : List (Nat × Nat)) (c : Char) : Bool :=
  ranges.any fun (first, last) => first ≤ c.toNat && c.toNat ≤ last

def isCased (c : Char) : Bool := inRanges CaseTable.cased c

def isIgnorable (c : Char) : Bool := inRanges CaseTable.ignorable c

/-- Whether a run maps a code point. -/
def covers (n : Nat) (run : CaseTable.Run) : Bool :=
  run.first ≤ n && n ≤ run.last && (n - run.first) % run.step == 0

/-- The lower-case form of a character outside any context. -/
def character (c : Char) : List Char :=
  if c.toNat < 128 then [c.toLower]
  else if c = '\u0130' then ['i', '\u0307']
  else
    match CaseTable.lower.find? (covers c.toNat) with
    | some run => [Char.ofNat (c.toNat + run.offset).toNat]
    | none => [c]

/-- Whether the first character that is not ignorable is cased. -/
def startsCased (cs : List Char) : Bool :=
  match cs.dropWhile isIgnorable with
  | c :: _ => isCased c
  | [] => false

/-- The lower-case form of the characters that follow those already read, latest first. -/
def after (before : List Char) : List Char → List Char
  | [] => []
  | c :: rest =>
    let image :=
      if c = 'Σ' then [if startsCased before && !startsCased rest then 'ς' else 'σ']
      else character c
    image ++ after (c :: before) rest

/-- The lower-case form of a run of characters. -/
def characters (cs : List Char) : List Char := after [] cs

/-- The lower-case form of a text. -/
def fold (text : String) : String := String.ofList (characters text.toList)

example : fold "ABC" = "abc" := by decide

/-- A capital sigma inside a word and one at its end. -/
example : fold "ΌΣΟΣ" = "όσος" := by decide +kernel

end LedgerQuery.Lowercase
