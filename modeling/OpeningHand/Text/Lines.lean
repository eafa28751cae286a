/-!
# Lines

A text as a list of lines. Two rules are in use: a deck list ends its lines at any of the line
boundaries of Unicode and ASCII, while a file read as text knows the three newlines `\n`, `\r\n` and
`\r` and gives all of them as `\n`.
-/

namespace OpeningHand.Text

/-- A character that ends a line; `\r\n` together end one line. -/
def isLineBoundary (c : Char) : Bool :=
  let n := c.toNat
  (10 ≤ n && n ≤ 13) || (0x1c ≤ n && n ≤ 0x1e) || n == 0x85 || n == 0x2028 || n == 0x2029

/-- The lines of the rest of a text, `line` being the part of the current line already passed, last
character first. A text that ends with a boundary has no line after it. -/
def linesFrom (line : List Char) : List Char → List (List Char)
  | [] => if line.isEmpty then [] else [line.reverse]
  | '\r' :: '\n' :: cs => line.reverse :: linesFrom [] cs
  | c :: cs =>
    if isLineBoundary c then line.reverse :: linesFrom [] cs else linesFrom (c :: line) cs

/-- The lines of a text, without the boundaries that end them. -/
def lines (cs : List Char) : List (List Char) :=
  linesFrom [] cs

/-- Every newline as `\n`. -/
def unifyNewlines : List Char → List Char
  | [] => []
  | '\r' :: '\n' :: cs => '\n' :: unifyNewlines cs
  | '\r' :: cs => '\n' :: unifyNewlines cs
  | c :: cs => c :: unifyNewlines cs

end OpeningHand.Text
