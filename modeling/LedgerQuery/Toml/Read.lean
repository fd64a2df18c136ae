/-
  LedgerQuery.Toml.Read

  Reading TOML 1.0 documents. Arrays and inline tables may be nested 79 levels deep.
-/
import LedgerQuery.Toml.Scalar

namespace LedgerQuery.Toml

/-! ## Blanks, comments and line ends -/

def skipBlank (cs : List Char) : List Char := cs.dropWhile fun c => c = ' ' || c = '\t'

/-- Whether a character may stand in a comment. -/
def isPlain (c : Char) : Bool := c = '\t' || (0x20 ≤ c.toNat && c.toNat ≤ 0x7E) || 0x80 ≤ c.toNat

/-- What follows a comment, if there is one. -/
def skipComment : List Char → List Char
  | '#' :: rest => rest.dropWhile isPlain
  | cs => cs

/-- What follows a line end. -/
def lineEnd? : List Char → Option (List Char)
  | '\n' :: rest => some rest
  | '\r' :: '\n' :: rest => some rest
  | _ => none

/-- What follows the rest of a line that holds nothing more. -/
def finishLine (cs : List Char) : Option (List Char) :=
  match skipComment (skipBlank cs) with
  | [] => some []
  | cs => lineEnd? cs

/-- What follows blanks, comments and line ends. -/
def skipLines : (fuel : Nat) → List Char → List Char
  | 0, cs => cs
  | fuel + 1, cs =>
    match lineEnd? (skipComment (skipBlank cs)) with
    | some rest => skipLines fuel rest
    | none => skipBlank cs

/-! ## Text -/

/-- The character with a code point of `width` hexadecimal digits. -/
def codePoint (width : Nat) (cs : List Char) : Option (Char × List Char) :=
  let digits := cs.take width
  match digits.mapM digit? with
  | some values =>
    let n := values.foldl (fun total d => total * 16 + d) 0
    if digits.length = width ∧ (n < 0xD800 ∨ (0xE000 ≤ n ∧ n ≤ 0x10FFFF)) then
      some (Char.ofNat n, cs.drop width)
    else none
  | none => none

/-- The character that an escape stands for. -/
def escaped : List Char → Option (Char × List Char)
  | 'b' :: rest => some ('\x08', rest)
  | 't' :: rest => some ('\t', rest)
  | 'n' :: rest => some ('\n', rest)
  | 'f' :: rest => some ('\x0c', rest)
  | 'r' :: rest => some ('\r', rest)
  | '"' :: rest => some ('"', rest)
  | '\\' :: rest => some ('\\', rest)
  | 'u' :: rest => codePoint 4 rest
  | 'U' :: rest => codePoint 8 rest
  | _ => none

/-- A basic text on one line, after its opening quote. -/
def basicBody : (fuel : Nat) → List Char → Option (List Char × List Char)
  | fuel + 1, c :: rest =>
    if c = '"' then some ([], rest)
    else if c = '\\' then do
      let (d, rest) ← escaped rest
      let (found, rest) ← basicBody fuel rest
      return (d :: found, rest)
    else if isPlain c then do
      let (found, rest) ← basicBody fuel rest
      return (c :: found, rest)
    else none
  | _, _ => none

/-- A literal text on one line, after its opening quote. -/
def literalBody (cs : List Char) : Option (List Char × List Char) :=
  let found := cs.takeWhile fun c => isPlain c && c ≠ '\''
  match cs.drop found.length with
  | '\'' :: rest => some (found, rest)
  | _ => none

/-- What follows a backslash at the end of a line: the blanks and line ends after it are left
    out. -/
def continued? (fuel : Nat) (cs : List Char) : Option (List Char) :=
  (lineEnd? (skipBlank cs)).map fun rest =>
    let rec skip : Nat → List Char → List Char
      | 0, cs => cs
      | fuel + 1, cs =>
        match lineEnd? (skipBlank cs) with
        | some rest => skip fuel rest
        | none => skipBlank cs
    skip fuel rest

/-- A text over several lines, after its opening quotes; up to two quotes may stand before the
    three that close it. -/
def linesBody (quote : Char) : (fuel : Nat) → List Char → Option (List Char × List Char)
  | fuel + 1, c :: rest =>
    if c = quote then
      let quotes := (c :: rest).takeWhile (· = quote)
      -- Of a run of quotes the last three close the text, and what stands before them is in it.
      if quotes.length < 3 then do
        let (found, rest) ← linesBody quote fuel rest
        return (c :: found, rest)
      else if quotes.length ≤ 5 then
        some (List.replicate (quotes.length - 3) quote, (c :: rest).drop quotes.length)
      else none
    else if c = '\\' ∧ quote = '"' then
      match continued? fuel rest with
      | some rest => linesBody quote fuel rest
      | none => do
        let (d, rest) ← escaped rest
        let (found, rest) ← linesBody quote fuel rest
        return (d :: found, rest)
    else
      match lineEnd? (c :: rest) with
      | some rest => do
        let (found, rest) ← linesBody quote fuel rest
        return ('\n' :: found, rest)
      | none =>
        if isPlain c then do
          let (found, rest) ← linesBody quote fuel rest
          return (c :: found, rest)
        else none
  | _, _ => none

/-- What follows a line end, if there is one. -/
def skipLineEnd (cs : List Char) : List Char := (lineEnd? cs).getD cs

/-- A text of any form. -/
def quotedText (fuel : Nat) (cs : List Char) : Option (String × List Char) :=
  (match cs with
    | '"' :: '"' :: '"' :: rest => linesBody '"' fuel (skipLineEnd rest)
    | '\'' :: '\'' :: '\'' :: rest => linesBody '\'' fuel (skipLineEnd rest)
    | '"' :: rest => basicBody fuel rest
    | '\'' :: rest => literalBody rest
    | _ => none).map fun (found, rest) => (String.ofList found, rest)

/-! ## Keys -/

def isKeyChar (c : Char) : Bool := c.isAlphanum || c = '_' || c = '-'

/-- One part of a key. -/
def simpleKey (fuel : Nat) (cs : List Char) : Option (String × List Char) :=
  match cs with
  | '"' :: rest => (basicBody fuel rest).map fun (found, rest) => (String.ofList found, rest)
  | '\'' :: rest => (literalBody rest).map fun (found, rest) => (String.ofList found, rest)
  | cs =>
    let found := cs.takeWhile isKeyChar
    if found.isEmpty then none else some (String.ofList found, cs.drop found.length)

/-- A key of parts that points separate, with blanks around them. -/
def key : (fuel : Nat) → List Char → Option (List String × List Char)
  | 0, _ => none
  | fuel + 1, cs => do
    let (part, rest) ← simpleKey fuel (skipBlank cs)
    match skipBlank rest with
    | '.' :: rest =>
      let (parts, rest) ← key fuel rest
      return (part :: parts, rest)
    | rest => return ([part], rest)

/-- The number of levels that values and keys stay below. -/
def levels : Nat := 80

/-- A key that is not too long. -/
def boundedKey (fuel : Nat) (cs : List Char) : Option (List String × List Char) := do
  let (parts, rest) ← key fuel cs
  if parts.length < levels then some (parts, rest) else none

/-! ## Values -/

mutual

/-- A value, which may hold others `depth` levels deep. -/
def value : (fuel depth : Nat) → List Char → Option (Toml × List Char)
  | 0, _, _ => none
  | fuel + 1, depth, cs =>
    match cs with
    | '"' :: _ | '\'' :: _ => (quotedText fuel cs).map fun (s, rest) => (.text s, rest)
    | '[' :: rest =>
      match depth with
      | 0 => none
      | depth + 1 => (items fuel depth rest).map fun (found, rest) => (.array found, rest)
    | '\x7b' :: rest =>
      match depth with
      | 0 => none
      | depth + 1 =>
        match skipBlank rest with
        | '\x7d' :: rest => some (.table .inline [], rest)
        | rest =>
          (pairs fuel depth [] rest).map fun (found, rest) => (.table .inline found, rest)
    | cs => scalar cs

/-- The items of an array up to the closing bracket. -/
def items : (fuel depth : Nat) → List Char → Option (List Toml × List Char)
  | 0, _, _ => none
  | fuel + 1, depth, cs =>
    match skipLines fuel cs with
    | ']' :: rest => some ([], rest)
    | cs => do
      let (item, rest) ← value fuel depth cs
      match skipLines fuel rest with
      | ',' :: rest =>
        let (found, rest) ← items fuel depth rest
        return (item :: found, rest)
      | ']' :: rest => return ([item], rest)
      | _ => none

/-- The pairs of an inline table up to the closing brace, added to those before. -/
def pairs : (fuel depth : Nat) → Entries → List Char → Option (Entries × List Char)
  | 0, _, _, _ => none
  | fuel + 1, depth, entries, cs => do
    let (path, rest) ← boundedKey fuel cs
    let rest ← after? '=' rest
    let (item, rest) ← value fuel depth (skipBlank rest)
    let entries ← addDotted .header item path entries
    match skipBlank rest with
    | ',' :: rest => pairs fuel depth entries rest
    | '\x7d' :: rest => return (entries, rest)
    | _ => none

end

/-! ## Documents -/

/-- Read line after line; `header` is the path of the table that values are added to. -/
def document : (fuel : Nat) → (header : List String) → Entries → List Char → Option Entries
  | 0, _, _, _ => none
  | fuel + 1, header, entries, cs =>
    match skipBlank cs with
    | [] => some entries
    | '[' :: '[' :: rest => do
      let (path, rest) ← boundedKey fuel rest
      let rest ← after? ']' (← after? ']' rest)
      let entries ← descend openNext path entries
      document fuel path entries (← finishLine rest)
    | '[' :: rest => do
      let (path, rest) ← boundedKey fuel rest
      let rest ← after? ']' rest
      let entries ← descend openTable path entries
      document fuel path entries (← finishLine rest)
    | cs =>
      match finishLine cs with
      | some rest => document fuel header entries rest
      | none => do
        let (path, rest) ← boundedKey fuel cs
        let rest ← after? '=' rest
        let (item, rest) ← value fuel (levels - 1) (skipBlank rest)
        let entries ← addTo header path item entries
        document fuel header entries (← finishLine rest)

/-- The root table of a document. A byte order mark at its start is left out. -/
def read? (source : String) : Option Entries :=
  let cs := match source.toList with
    | '\uFEFF' :: rest => rest
    | cs => cs
  document (2 * cs.length + 4) [] [] cs

end LedgerQuery.Toml
