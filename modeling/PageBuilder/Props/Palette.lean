/-
  The palette: the props a freshly added component starts with.
-/
import PageBuilder.Props.Basic

namespace PageBuilder

namespace Settings

/-- Settings without a class name and without other fields. -/
def ofCells {k : Kind} (cells : Record k.fields) : Settings k := ⟨cells, none, []⟩

/-- Settings with a class name. -/
def styled {k : Kind} (className : String) (cells : Record k.fields) : Settings k :=
  ⟨cells, some className, []⟩

/-- A whole number as the value of a field. -/
def number (n : Nat) : Option Binary64 := some (Binary64.ofNat n)

/-- **The palette** of a kind. -/
def palette : (k : Kind) → Settings k
  | .container => styled
      "p-4 border border-dashed border-slate-300 rounded min-h-[100px] bg-slate-50/50" ()
  | .card => styled "p-6 bg-white border border-slate-200 shadow-sm rounded-xl" ()
  | .button => ofCells (some "Button", some .primary, ())
  | .dataList => ofCells
      (some "Dynamic List", some "Configure source", [], some "", some .title, some .none, ())
  | .badge => ofCells (some "Badge", some .default, ())
  | .text => styled "text-slate-800" (some "Double click to edit text...", ())
  | .input => ofCells (some "Enter text...", none, none, ())
  | .textarea => ofCells (some "Enter long text...", some 3, none, ())
  | .image => styled "w-full h-48 bg-slate-200 object-cover rounded-lg" (none, none, ())
  | .divider => styled "my-4" ()
  | .avatar => styled "w-12 h-12" (none, none, some "OR", ())
  | .toggle => ofCells (some "Toggle me", ())
  | .checkbox => ofCells (some "Check me", ())
  | .slider => ofCells (none, none, number 50, ())
  | .progress => ofCells (number 60, ())
  | .alert => ofCells (some "Notification", some "Something happened", some .info, ())
  | .select => ofCells (some ["Option A", "Option B"], ())
  | .spacer => ofCells (number 4, ())
  | .rating => ofCells (some 5, ())
  | .radioGroup => ofCells (some ["Option A", "Option B", "Option C"], ())
  | .breadcrumb => ofCells (some ["Home", "Section", "Page"], ())
  | .tag => ofCells (some "Tag", ())
  | .statistic => ofCells (some "Revenue", some "$12,450", some "+12%", ())
  | .quote => ofCells
      (some "Innovation distinguishes between a leader and a follower.", some "Steve Jobs", ())
  | .video => ofCells (some "", ())
  | .map => ofCells ()
  | .table => ofCells (some ["Name", "Role", "Status"],
      some [["Alice", "Admin", "Active"], ["Bob", "User", "Offline"]], ())
  | .codeBlock => ofCells (some "console.log(\"Hello World\");", ())

end Settings

/-- Palette props of a kind; a node without a kind starts with nothing. -/
def Props.palette : Option Kind → Props
  | some k => .known k (.palette k)
  | none => .blank none

end PageBuilder
