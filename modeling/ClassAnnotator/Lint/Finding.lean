import ClassAnnotator.Feature
import ClassAnnotator.Properties
import ClassAnnotator.Text.Split

/-! # Findings in a configuration

A finding says why an entry has less effect than it seems to. Its wording is in `issue`.
-/

namespace ClassAnnotator.Lint

inductive Severity where
  /-- The annotated class will not compile. -/
  | error
  /-- The entry is ignored. -/
  | warning
  /-- The entry is harmless but has no effect. -/
  | info
  deriving DecidableEq, Repr

def Severity.name : Severity → String
  | error => "error"
  | warning => "warning"
  | info => "info"

structure Issue where
  /-- The key of the entry. -/
  location : String
  severity : Severity
  kind : String
  message : String
  suggestion : Option String
  deriving DecidableEq, Repr

inductive Finding where
  | unknownFeature (key : String)
  | defaultFeatureFlag (key : String) (f : Feature)
  | nonBooleanFlag (key value : String) (f : Feature)
  | orphanOption (key owner : String)
  | unbalancedBraces (key value : String)
  deriving DecidableEq, Repr

namespace Finding

def location : Finding → String
  | unknownFeature key => key
  | defaultFeatureFlag key _ => key
  | nonBooleanFlag key _ _ => key
  | orphanOption key _ => key
  | unbalancedBraces key _ => key

def severity : Finding → Severity
  | unknownFeature _ => .warning
  | defaultFeatureFlag .. => .info
  | nonBooleanFlag .. => .warning
  | orphanOption .. => .info
  | unbalancedBraces .. => .error

def kind : Finding → String
  | unknownFeature _ => "unknown_feature"
  | defaultFeatureFlag .. => "default_feature_flag"
  | nonBooleanFlag .. => "non_boolean_flag"
  | orphanOption .. => "orphan_option"
  | unbalancedBraces .. => "unbalanced_braces"

def message : Finding → String
  | unknownFeature key => "'" ++ key ++ "' does not name a feature and is ignored"
  | defaultFeatureFlag key f =>
    f.name ++ " is always attached; '" ++ key ++ "' has no effect on selection"
  | nonBooleanFlag _ value f =>
    "'" ++ value ++ "' is not a boolean; " ++ f.name ++ " stays disabled"
  | orphanOption key owner => "'" ++ owner ++ "' is not enabled, so '" ++ key ++ "' is ignored"
  | unbalancedBraces _ value =>
    "'" ++ value ++ "' has " ++ toString (value.toList.count '{') ++ " '\x7b' but " ++
      toString (value.toList.count '}') ++ " '\x7d'; the annotation will not compile"

def suggestion : Finding → Option String
  | unknownFeature _ => some ("Use one of: " ++ ", ".intercalate (Feature.catalog.map (·.key)))
  | nonBooleanFlag key _ f => some ("Set " ++ key ++ " = \"true\" to enable " ++ f.name)
  | orphanOption _ owner => (Feature.lookup owner).map fun f => "Add " ++ f.key ++ " = \"true\""
  | _ => none

def issue (f : Finding) : Issue :=
  ⟨f.location, f.severity, f.kind, f.message, f.suggestion⟩

end Finding

/-- The flag `owner` is set to `true` and names a feature. -/
def ownerEnabled (p : Properties) (owner : String) : Bool :=
  (match p.get? owner with
    | some value => Text.sameIgnoringCase value "true"
    | none => false) && (Feature.lookup owner).isSome

def flagFindings (key value : String) : List Finding :=
  match Feature.lookup key with
  | none => [.unknownFeature key]
  | some f =>
    (if f.isDefault then [.defaultFeatureFlag key f] else []) ++
      (if Text.sameIgnoringCase value "true" || Text.sameIgnoringCase value "false" then []
       else [.nonBooleanFlag key value f])

def optionFindings (p : Properties) (key owner value : String) : List Finding :=
  (if ownerEnabled p owner then [] else [.orphanOption key owner]) ++
    (if value.toList.count '{' = value.toList.count '}' then []
     else [.unbalancedBraces key value])

def entryFindings (p : Properties) (entry : String × String) : List Finding :=
  match Text.cut? '.' entry.1 with
  | none => flagFindings entry.1 entry.2
  | some (owner, _) => optionFindings p entry.1 owner entry.2

def findings (p : Properties) : List Finding :=
  p.entries.flatMap (entryFindings p)

def issues (p : Properties) : List Issue :=
  (findings p).map Finding.issue

def hasErrors (issues : List Issue) : Bool :=
  issues.any (·.severity == .error)

end ClassAnnotator.Lint
