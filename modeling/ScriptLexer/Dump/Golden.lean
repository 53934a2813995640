import ScriptLexer.Scan.Scanner

/-!
# Golden dumps

A golden dump holds all that a scan of one text shows: the listing of its tokens and, if there are
any, its findings behind a separator.

* `Golden.ofText`: what a scan of a text shows.
* `Golden.text`: its golden dump.
-/

namespace ScriptLexer

/-- The lines that a scan of one text shows. -/
structure Golden where
  tokens : List String
  findings : List String
  hadError : Bool
  deriving DecidableEq

namespace Golden

/-- Scan a text and list its tokens and findings. -/
def ofText (text : String) : Except Fault Golden := do
  let (tokens, scanner) ← scan text Collection.empty
  return {
    tokens := tokens.toList.map Token.listing
    findings := scanner.reporter.entries.toList.map Diagnostic.text
    hadError := scanner.reporter.hasErrors
  }

/-- The listed tokens on lines, then the findings behind a separator line. -/
def text (g : Golden) : String :=
  let listing := "\n".intercalate g.tokens
  if g.findings.isEmpty then listing else listing ++ "\n--\n" ++ "\n".intercalate g.findings

end Golden

end ScriptLexer
