import LocalSearch.Yaml.Cursor
/-!
# Gaps

Blanks and line ends between the words of a scalar.

* `Gap`: what stands between two words.
* `Gap.text`: what it counts for: blanks on a line as they are, and a single line feed as a blank.
* `Gap.read`: reads a gap.
-/

namespace LocalSearch.Yaml

/-- Blanks and line ends between two words. -/
structure Gap where
  /-- The blanks, if there is no line end. -/
  blanks : List Char
  /-- There is a line end. -/
  broken : Bool
  /-- The first line end; nothing if it is escaped. -/
  first : List Char
  /-- The line ends after it. -/
  more : List Char

namespace Gap

/-- No gap. -/
def none : Gap := ⟨[], false, [], []⟩

/-- An escaped line end. -/
def escaped : Gap := ⟨[], true, [], []⟩

/-- What a gap counts for. -/
def text (g : Gap) : List Char :=
  if !g.broken then g.blanks
  else if g.first = ['\n'] then (if g.more.isEmpty then [' '] else g.more)
  else g.first ++ g.more

/-- Reads blanks and line ends that go on a gap. Tabs left of a column are an error once there is a
line end. -/
def read (indent : Int) : Nat → Gap → Cursor → Option (Gap × Cursor)
  | 0, _, _ => .none
  | n + 1, g, c =>
    match c.head? with
    | some d =>
      if isBlank d then
        if !g.broken then read indent n { g with blanks := g.blanks ++ [d] } (c.skip 1)
        else if d == '\t' && c.column < indent then .none
        else read indent n g (c.skip 1)
      else if isBreak d then
        let g := if g.broken then { g with more := g.more ++ c.breakText }
          else ⟨[], true, c.breakText, g.more⟩
        read indent n g c.newline
      else some (g, c)
    | _ => some (g, c)

end Gap

end LocalSearch.Yaml
