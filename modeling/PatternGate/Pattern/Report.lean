import PatternGate.Pattern.Fault

/-!
# Reports

The text of a fault shows the pattern with carets under the spans that the fault points at. A
pattern of several lines is shown between rules, with line numbers; spans that cross a line are
named below it in words.
-/

namespace PatternGate.Report

/-- The lines of a text. A line feed ends a line, together with a carriage return before it; after
the last line feed nothing is no line. -/
def linesFrom (line : List Char) : List Char → List (List Char)
  | [] => if line.isEmpty then [] else [line.reverse]
  | '\n' :: rest =>
    let line := match line with
      | '\r' :: start => start
      | line => line
    line.reverse :: linesFrom [] rest
  | c :: rest => linesFrom (c :: line) rest

/-- The lines of a text. -/
def lines (text : List Char) : List (List Char) := linesFrom [] text

/-- The number of lines on which a span can stand: a text that ends in a line feed has one more. -/
def lineCount (text : List Char) : Nat :=
  (lines text).length + if text.getLast? = some '\n' then 1 else 0

/-- A span put into its place among ordered spans. -/
def insertSpan (s : Span) : List Span → List Span
  | [] => [s]
  | t :: rest => if s.before t then s :: t :: rest else t :: insertSpan s rest

/-- The spans that a fault points at, in order. -/
def spans (f : Fault) : List Span :=
  match f.cause.first? with
  | none => [f.span]
  | some first => insertSpan first [f.span]

/-- Blanks up to the start of each span, and carets under it, from a column on. -/
def carets : Nat → List Span → List Char
  | _, [] => []
  | column, s :: rest =>
    let indent := s.start.column - 1 - column
    let width := max 1 (s.stop.column - s.start.column)
    List.replicate indent ' ' ++ List.replicate width '^' ++ carets (column + indent + width) rest

/-- A number filled up with blanks on the left. -/
def padLeft (width n : Nat) : List Char :=
  let digits := (toString n).toList
  List.replicate (width - digits.length) ' ' ++ digits

/-- The lines of a pattern with their numbers, if it has several, and with the carets below each. -/
def notate (width : Nat) (spans : List Span) : Nat → List (List Char) → List Char
  | _, [] => []
  | number, line :: rest =>
    let head := if width = 0 then List.replicate 4 ' ' else padLeft width number ++ [':', ' ']
    let marks := spans.filter fun s => s.isOneLine && s.start.line == number
    let notes :=
      if marks.isEmpty then []
      else List.replicate (if width = 0 then 4 else width + 2) ' ' ++ carets 0 marks ++ ['\n']
    head ++ line ++ ['\n'] ++ notes ++ notate width spans (number + 1) rest

/-- Where a span that crosses a line stands. -/
def crossing (s : Span) : String :=
  "on line " ++ toString s.start.line ++ " (column " ++ toString s.start.column ++
    ") through line " ++ toString s.stop.line ++
    " (column " ++ toString (s.stop.column - 1) ++ ")\n"

/-- The rule above and below a pattern of several lines. -/
def rule : String := String.ofList (List.replicate 79 '~') ++ "\n"

/-- The report of a fault of a pattern. -/
def text (pattern : String) (f : Fault) : String :=
  let chars := pattern.toList
  let count := lineCount chars
  let width := if count ≤ 1 then 0 else (toString count).length
  let spans := spans f
  let body := String.ofList (notate width spans 1 (lines chars))
  let shown :=
    if chars.contains '\n' then
      rule ++ body ++ rule ++ String.join ((spans.filter (!·.isOneLine)).map crossing)
    else body
  "regex parse error:\n" ++ shown ++ "error: " ++ f.cause.message

end PatternGate.Report
