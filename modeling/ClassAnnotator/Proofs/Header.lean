import ClassAnnotator.CommandLine.Command
import ClassAnnotator.Proofs.Described

/-! # Printed headers

Two commands print what a configuration compiles to: one lists the imports and the annotations, the
other writes a class that has them. Every configuration selects the default feature, so a class
always has imports, and a blank line below them.
-/

namespace ClassAnnotator

variable {p : Properties} {e : Element} {className : String}

namespace Element

end Element

namespace Command

variable {read : String → Option String} {source : PropertySource}

end Command

end ClassAnnotator
