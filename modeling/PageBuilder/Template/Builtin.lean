/-
  The built-in templates, and the page an editor starts with.
-/
import PageBuilder.Template.Basic

namespace PageBuilder.Builtin

/-! ## Building blocks -/

def container (id cls : String) (children : List Node) : Node :=
  (Node.make id (.known .container (.styled cls ()))).withChildren children

def card (id cls : String) (children : List Node) : Node :=
  (Node.make id (.known .card (.styled cls ()))).withChildren children

def text (id content : String) (cls : Option String) : Node :=
  .make id (.known .text ⟨(some content, ()), cls, []⟩)

def button (id label : String) (variant : ButtonVariant) (cls : Option String) : Node :=
  .make id (.known .button ⟨(some label, some variant, ()), cls, []⟩)

def input (id placeholder : String) (value cls : Option String) : Node :=
  .make id (.known .input ⟨(some placeholder, none, value, ()), cls, []⟩)

def row (id title subtitle value badge : String) : ListItem :=
  ⟨id, title, some subtitle, some value, some badge⟩

/-! ## The starting page -/

def header : Node :=
  container "header-container" "flex justify-between items-center border-b pb-4 mb-4"
    [text "title-text" "Orion Dashboard"
        (some "text-2xl font-bold text-slate-800 tracking-tight"),
      .make "status-badge" (.known .badge (.ofCells (some "Orion Connected", some .success, ())))]

def profile : Node :=
  card "profile-card" "p-4 text-center space-y-3"
    [.make "profile-img" (.known .avatar (.styled "w-24 h-24 mx-auto"
        (some "https://api.dicebear.com/7.x/avataaars/svg?seed=Felix", some "User Avatar", none,
          ()))),
      input "profile-name-input" "Edit User Name" (some "Orion User")
        (some "text-center font-semibold")]

def marketList : Node :=
  .make "market-list" (.known .dataList (.ofCells
    (some "Analytics Data", some "Configure items manually",
      [row "1" "Phase 1" "Initial setup" "100%" "Done",
        row "2" "Phase 2" "Implementation" "45%" "In Progress"],
      none, none, none, ())))

def actionBar : Node :=
  container "action-bar" "flex justify-end gap-2 pt-4 border-t border-slate-100"
    [button "cancel-btn" "Cancel" .ghost none, button "save-btn" "Save Changes" .primary none]

def content : Node :=
  container "content-row" "grid grid-cols-1 md:grid-cols-3 gap-6"
    [container "left-col" "md:col-span-1 space-y-4" [profile],
      container "right-col" "md:col-span-2 space-y-4" [marketList, actionBar]]

/-- **The page** an editor starts with. -/
def startingPage : Node :=
  container Node.rootId
    ("max-w-4xl mx-auto p-8 space-y-6 bg-white shadow-2xl rounded-2xl min-h-[600px] "
      ++ "border border-slate-100")
    [header, content]

/-! ## The templates -/

def hero : Template where
  id := "tpl_hero"
  name := "Hero Section"
  schema :=
    container "hero-root" "text-center py-16 px-4 bg-slate-900 rounded-3xl text-white space-y-6"
      [text "h-title" "Build with Orion" (some "text-4xl font-extrabold tracking-tight"),
        text "h-sub" "Drag, drop, and build rapidly." (some "text-slate-400 max-w-lg mx-auto"),
        container "h-actions" "flex justify-center gap-4 pt-4"
          [button "h-btn1" "Get Started" .primary none,
            button "h-btn2" "View Demo" .outline
              (some "bg-transparent text-white border-slate-700")]]

/-- One card of the pricing template. -/
def tier (n name price cls nameClass action : String) (variant : ButtonVariant) : Node :=
  card ("p-c" ++ n) cls
    [text ("p-t" ++ n) name (some nameClass),
      text ("p-pr" ++ n) price (some "text-3xl font-bold"),
      button ("p-btn" ++ n) action variant none]

def pricing : Template where
  id := "tpl_pricing"
  name := "Pricing Cards"
  schema :=
    container "price-root" "grid grid-cols-1 md:grid-cols-3 gap-4"
      [tier "1" "Basic" "$0/mo" "p-6 space-y-4" "font-bold text-lg" "Select" .outline,
        tier "2" "Pro" "$29/mo" "p-6 bg-slate-900 text-white space-y-4 scale-105"
          "font-bold text-lg text-indigo-400" "Select" .primary,
        tier "3" "Enterprise" "Custom" "p-6 space-y-4" "font-bold text-lg" "Contact" .outline]

def form : Template where
  id := "tpl_form"
  name := "Contact Form"
  schema :=
    card "form-root" "max-w-md mx-auto p-6 space-y-4"
      [text "f-title" "Contact Us" (some "text-xl font-bold mb-2"),
        input "f-in1" "Your Name" none none,
        input "f-in2" "Email Address" none none,
        .make "f-chk" (.known .checkbox (.ofCells (some "Subscribe to newsletter", ()))),
        button "f-btn" "Send Message" .primary (some "w-full")]

/-- The registry an editor starts with. -/
def registry : Registry :=
  [hero, pricing, form].foldl Registry.register []

end PageBuilder.Builtin
