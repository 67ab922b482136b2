import LocalSearch.Yaml.Gap
/-!
# Plain scalars of YAML

Scalars without quotes. They end before a colon that is followed by a gap, before a comment, at the
bounds of a document, within brackets also before a bracket or a comma, and otherwise before a line
that is not indented enough.
-/

namespace LocalSearch.Yaml

/-- The characters that have a meaning of their own within brackets. -/
def isFlowMark (c : Char) : Bool :=
  c == ',' || c == '[' || c == ']' || c == '\x7b' || c == '\x7d'

/-- A word of a plain scalar. Within brackets a colon must not be followed by another mark. -/
def plainWord (flow : Bool) : List Char → Option (List Char)
  | [] => some []
  | c :: rest =>
    if isBlank c || isBreak c then some []
    else if flow && c == ':' && rest.head?.any (fun d => isFlowMark d || d == '?') then none
    else if c == ':' && rest.head?.all (fun d => isBlank d || isBreak d) then some []
    else if flow && isFlowMark c then some []
    else (c :: ·) <$> plainWord flow rest

/-- Reads words after a gap. Also answers whether the scalar ends after a line end. -/
def readPlainWords (flow : Bool) (indent : Int) :
    Nat → Gap → Cursor → Option (List Char × Bool × Cursor)
  | 0, _, _ => none
  | n + 1, gap, c =>
    if c.atBound || c.sees '#' then some ([], gap.broken, c)
    else do
      let word ← plainWord flow c.rest
      let after := c.skip word.length
      let s := if word.isEmpty then [] else gap.text ++ word
      let gap := if word.isEmpty then gap else .none
      if !after.seesOne fun d => isBlank d || isBreak d then return (s, gap.broken, after)
      let (gap, c) ← Gap.read indent (n + 1) gap after
      if !flow && c.column < indent then return (s, gap.broken, c)
      let (more, broken, c) ← readPlainWords flow indent n gap c
      return (s ++ more, broken, c)

/-- Reads a plain scalar, whose further lines must be indented to a column. Also answers whether it
ends after a line end. -/
def readPlain (flow : Bool) (indent : Int) (c : Cursor) : Option (List Char × Bool × Cursor) :=
  readPlainWords flow indent (c.rest.length + 1) .none c

end LocalSearch.Yaml
