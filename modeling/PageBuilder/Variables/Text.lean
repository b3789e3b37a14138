/-
  Variables as JSON text: one object, with a field for every variable in order.
-/
import PageBuilder.Json.Reader
import PageBuilder.Variables.Basic

namespace PageBuilder.Variables

/-- **The reader** of variables. -/
def ofText? (s : String) : Option Variables := ((Json.ofText? s).bind Json.fields?).map ofSnapshot

/-- **The writer**, over several lines. -/
def text (vs : Variables) : String := (Json.object vs).pretty

end PageBuilder.Variables
