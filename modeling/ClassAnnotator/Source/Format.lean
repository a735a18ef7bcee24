import ClassAnnotator.Files
import ClassAnnotator.Json.Reader
import ClassAnnotator.Text.Case
import ClassAnnotator.Toml.Reader
import ClassAnnotator.Yaml.Reader

/-! # Formats of configuration files

The suffix of a path decides the format; a path without a known suffix is TOML.
-/

namespace ClassAnnotator

inductive Format where
  | toml
  | yaml
  | json
  deriving DecidableEq, Repr

namespace Format

def name : Format → String
  | toml => "TOML"
  | yaml => "YAML"
  | json => "JSON"

def ofPath (path : String) : Format :=
  match Path.suffix? path with
  | none => toml
  | some s =>
    if Text.sameIgnoringCase s "yaml" || Text.sameIgnoringCase s "yml" then yaml
    else if Text.sameIgnoringCase s "json" then json
    else toml

def read? (f : Format) (contents : String) : Option Document :=
  match f with
  | toml => Toml.read? contents
  | yaml => Yaml.read? contents
  | json => Json.read? contents

end Format

end ClassAnnotator
