/-!
# Scanning

A scanner takes what it reads off the front of the text and gives it with the rest, or refuses the
text. Here are the scanners for blanks, line ends, comments, runs of digits and quoted strings.
-/

namespace TieredState.Toml

/-- Text still to be read. -/
abbrev Input := List Char

/-- What was read, with the rest. -/
abbrev Scan (α : Type) := Option (α × Input)

namespace Scan

/-- A tab or a space. -/
def isBlank (c : Char) : Bool := c = ' ' || c = '\t'

/-- A character that may stand in a comment. -/
def isCommentChar (c : Char) : Bool := c = '\t' || (' ' ≤ c && c ≤ '~') || 0x80 ≤ c.toNat

/-- A character of a key without quotes. -/
def isBareKeyChar (c : Char) : Bool := c.isAlphanum || c = '_' || c = '-'

def isHexDigit (c : Char) : Bool := c.isDigit || ('a' ≤ c && c ≤ 'f') || ('A' ≤ c && c ≤ 'F')

/-- The value of a hexadecimal digit. -/
def hexValue (c : Char) : Nat :=
  if c.isDigit then c.toNat - '0'.toNat
  else if 'a' ≤ c && c ≤ 'f' then c.toNat - 'a'.toNat + 10
  else c.toNat - 'A'.toNat + 10

/-- The number that digits stand for. -/
def numeral (base : Nat) (ds : List Char) : Nat := ds.foldl (fun n d => n * base + hexValue d) 0

def skipBlanks (cs : Input) : Input := cs.dropWhile isBlank

/-- A line end: a line feed, with or without a carriage return before it. -/
def lineEnd? : Input → Option Input
  | '\n' :: r => some r
  | '\r' :: '\n' :: r => some r
  | _ => none

/-- A comment, if one starts here, up to the line end. -/
def skipComment : Input → Input
  | '#' :: r => r.dropWhile isCommentChar
  | cs => cs

/-- What may follow a statement on its line: blanks, a comment, and the end of the line or of the
text. -/
def endStatement? (cs : Input) : Option Input :=
  match skipComment (skipBlanks cs) with
  | [] => some []
  | r => lineEnd? r

/-- Blanks, comments and line ends, as they may stand between the elements of an array. A comment
has to be closed by a line end. -/
def skipSpace? (cs : Input) : Option Input :=
  go cs.length cs
where
  go : Nat → Input → Option Input
  | 0, cs => some cs
  | fuel + 1, cs =>
    match skipBlanks cs with
    | '#' :: r => (lineEnd? (r.dropWhile isCommentChar)).bind (go fuel)
    | '\n' :: r => go fuel r
    | '\r' :: r => (lineEnd? ('\r' :: r)).bind (go fuel)
    | r => some r

/-- The tail of a run of digits. A single underscore may stand before a digit. -/
def digitsTail (isDigit : Char → Bool) : Input → Scan (List Char)
  | [] => some ([], [])
  | '_' :: r =>
    match r with
    | d :: r' =>
      if isDigit d then (digitsTail isDigit r').map fun (ds, rest) => (d :: ds, rest) else none
    | [] => none
  | c :: r =>
    if isDigit c then (digitsTail isDigit r).map fun (ds, rest) => (c :: ds, rest)
    else some ([], c :: r)

/-- A run of one or more digits, with underscores between digits left out. -/
def digits (isDigit : Char → Bool) : Input → Scan (List Char)
  | [] => none
  | c :: r =>
    if isDigit c then (digitsTail isDigit r).map fun (ds, rest) => (c :: ds, rest) else none

/-- The character with a code point, if it is one. -/
def charOf? (code : Nat) : Option Char :=
  if code.isValidChar then some (Char.ofNat code) else none

/-- The character that hexadecimal digits name. -/
def hexChar? (ds : List Char) : Option Char :=
  if ds.all isHexDigit then charOf? (numeral 16 ds) else none

/-- An escape after its backslash. -/
def escape? : Input → Scan Char
  | 'b' :: r => some ('\x08', r)
  | 't' :: r => some ('\t', r)
  | 'n' :: r => some ('\n', r)
  | 'f' :: r => some ('\x0c', r)
  | 'r' :: r => some ('\r', r)
  | '"' :: r => some ('"', r)
  | '\\' :: r => some ('\\', r)
  | 'u' :: a :: b :: c :: d :: r => (hexChar? [a, b, c, d]).map (·, r)
  | 'U' :: a :: b :: c :: d :: e :: f :: g :: h :: r =>
    (hexChar? [a, b, c, d, e, f, g, h]).map (·, r)
  | _ => none

/-- A character that may stand in a string as itself, quotes and backslashes apart. -/
def isTextChar (c : Char) : Bool := c = '\t' || (' ' ≤ c && c ≠ '\x7f')

/-- The rest of a string on one line, after its opening double quote. -/
def basicText (cs : Input) : Scan (List Char) :=
  go cs.length cs
where
  go : Nat → Input → Scan (List Char)
  | 0, _ => none
  | _ + 1, [] => none
  | _ + 1, '"' :: r => some ([], r)
  | fuel + 1, '\\' :: r =>
    (escape? r).bind fun (c, r) => (go fuel r).map fun (s, rest) => (c :: s, rest)
  | fuel + 1, c :: r =>
    if isTextChar c then (go fuel r).map fun (s, rest) => (c :: s, rest) else none

/-- The rest of a literal string on one line, after its opening single quote. -/
def literalText : Input → Scan (List Char)
  | [] => none
  | c :: r =>
    if c = '\'' then some ([], r)
    else if isTextChar c then (literalText r).map fun (s, rest) => (c :: s, rest)
    else none

/-- The length of the run of `q` at the front. -/
def quoteRun (q : Char) (cs : Input) : Nat := (cs.takeWhile (· = q)).length

/-- Blanks and line ends in any order. -/
def skipBlankLines : Input → Input
  | [] => []
  | '\n' :: r => skipBlankLines r
  | '\r' :: '\n' :: r => skipBlankLines r
  | c :: r => if isBlank c then skipBlankLines r else c :: r

/-- The line break that follows a backslash at the end of a line, with all blanks and line ends
after it. -/
def continuation? (cs : Input) : Option Input := (lineEnd? (skipBlanks cs)).map skipBlankLines

/-- The line end right after the opening of a string of several lines is not part of it. -/
def dropFirstLineEnd (cs : Input) : Input := (lineEnd? cs).getD cs

/-- The rest of a string of several lines between runs of three `q`, with escapes if `escapes`.
The closing run may have one or two more of `q` in front, which belong to the string. A line end is
read as a line feed. -/
def longText (q : Char) (escapes : Bool) (cs : Input) : Scan (List Char) :=
  go cs.length cs
where
  go : Nat → Input → Scan (List Char)
  | 0, _ => none
  | _ + 1, [] => none
  | fuel + 1, c :: r =>
    if c = q then
      let n := quoteRun q (c :: r)
      if n < 3 then (go fuel r).map fun (s, rest) => (c :: s, rest)
      else if n ≤ 5 then some (List.replicate (n - 3) q, (c :: r).drop n)
      else none
    else if c = '\\' && escapes then
      match continuation? r with
      | some r' => go fuel r'
      | none =>
        (escape? r).bind fun (e, r') => (go fuel r').map fun (s, rest) => (e :: s, rest)
    else
      match lineEnd? (c :: r) with
      | some r' => (go fuel r').map fun (s, rest) => ('\n' :: s, rest)
      | none =>
        if isTextChar c then (go fuel r).map fun (s, rest) => (c :: s, rest) else none

/-- A string on one line, as it may stand for a key. -/
def shortText : Input → Scan String
  | '"' :: r => (basicText r).map fun (s, rest) => (String.ofList s, rest)
  | '\'' :: r => (literalText r).map fun (s, rest) => (String.ofList s, rest)
  | _ => none

/-- A string of any of the four forms. -/
def text : Input → Scan String
  | '"' :: '"' :: '"' :: r =>
    (longText '"' true (dropFirstLineEnd r)).map fun (s, rest) => (String.ofList s, rest)
  | '\'' :: '\'' :: '\'' :: r =>
    (longText '\'' false (dropFirstLineEnd r)).map fun (s, rest) => (String.ofList s, rest)
  | cs => shortText cs

/-- One part of a key. -/
def keyPart (cs : Input) : Scan String :=
  match cs with
  | '"' :: _ | '\'' :: _ => shortText cs
  | _ =>
    match cs.takeWhile isBareKeyChar with
    | [] => none
    | ks => some (String.ofList ks, cs.dropWhile isBareKeyChar)

/-- The greatest number of parts in a key, and of arrays and braced tables inside one another. -/
def depthLimit : Nat := 79

/-- A key: parts with points between them, each with blanks around it. -/
def key (cs : Input) : Scan (List String) :=
  go depthLimit cs
where
  go : Nat → Input → Scan (List String)
  | 0, _ => none
  | parts + 1, cs =>
    (keyPart (skipBlanks cs)).bind fun (k, r) =>
      match skipBlanks r with
      | '.' :: r' => (go parts r').map fun (ks, rest) => (k :: ks, rest)
      | r' => some ([k], r')

end Scan

end TieredState.Toml
