import ClassAnnotator.Lint.Finding

/-! # The printed lint report

A summary line, then a section for each severity that occurs, the gravest first.
-/

namespace ClassAnnotator.Lint

def Severity.heading : Severity → String
  | error => "❌ Errors (must fix):"
  | warning => "⚠️  Warnings (should fix):"
  | info => "ℹ️  Info:"

namespace Report

def ofSeverity (s : Severity) (issues : List Issue) : List Issue :=
  issues.filter (·.severity == s)

def block (i : Issue) : List String :=
  ["   [" ++ i.kind ++ "] " ++ i.location, "      " ++ i.message] ++
    (i.suggestion.map ("      💡 Suggestion: " ++ ·)).toList

def summary (issues : List Issue) : String :=
  let count s := toString (ofSeverity s issues).length
  "   " ++ count .error ++ " error(s), " ++ count .warning ++ " warning(s), " ++
    count .info ++ " info(s)"

def sectionLines (issues : List Issue) (s : Severity) : List String :=
  match ofSeverity s issues with
  | [] => []
  | found => s.heading :: found.flatMap block ++ [""]

def lines (issues : List Issue) : List String :=
  match issues with
  | [] => ["✅ No lint issues found!"]
  | _ =>
    ["", "📋 Lint Results:", summary issues, ""] ++
      [Severity.error, .warning, .info].flatMap (sectionLines issues)

/-- The report as a text in which every line is ended. -/
def text (issues : List Issue) : String :=
  String.join ((lines issues).map (· ++ "\n"))

end Report

end ClassAnnotator.Lint
