/-
  How components look in exported markup: the utility classes of every kind.  Both dialects share
  them, so a page looks the same whichever it is exported to.
-/
import PageBuilder.Choice

namespace PageBuilder.Export.Look

def button : Option ButtonVariant → String
  | some .primary => "px-4 py-2 rounded-lg bg-blue-600 text-white"
  | _ => "px-4 py-2 rounded-lg bg-slate-200 text-slate-800"

def badge (variant : Option BadgeVariant) : String :=
  match variant.getD .default with
  | .default => "px-2 py-0.5 rounded-full text-xs font-medium bg-slate-100 text-slate-700"
  | .success => "px-2 py-0.5 rounded-full text-xs font-medium bg-green-100 text-green-700"
  | .warning => "px-2 py-0.5 rounded-full text-xs font-medium bg-amber-100 text-amber-700"
  | .error => "px-2 py-0.5 rounded-full text-xs font-medium bg-red-100 text-red-700"
  | .danger => "px-2 py-0.5 rounded-full text-xs font-medium bg-red-100 text-red-700"
  | .primary => "px-2 py-0.5 rounded-full text-xs font-medium bg-indigo-100 text-indigo-700"
  | .secondary => "px-2 py-0.5 rounded-full text-xs font-medium bg-slate-800 text-white"
  | .outline =>
    "px-2 py-0.5 rounded-full text-xs font-medium border border-slate-300 text-slate-700"
  | .ghost => "px-2 py-0.5 rounded-full text-xs font-medium text-slate-600"

def alert (tone : Option AlertTone) : String :=
  match tone.getD .info with
  | .info => "p-4 rounded-lg border bg-blue-50 border-blue-200 text-blue-800"
  | .success => "p-4 rounded-lg border bg-green-50 border-green-200 text-green-800"
  | .warning => "p-4 rounded-lg border bg-amber-50 border-amber-200 text-amber-800"
  | .error => "p-4 rounded-lg border bg-red-50 border-red-200 text-red-800"

def list : String := "border rounded-xl overflow-hidden"
def listHeader : String := "bg-slate-50 p-3 font-bold border-b"
def listRow : String := "p-3 border-b last:border-0 flex justify-between"
def listValue : String := "font-mono"
def toggle : String := "inline-flex items-center gap-2"
def checkbox : String := "flex items-center gap-2"
def avatarImage : String := "rounded-full object-cover"
def avatarInitials : String :=
  "rounded-full bg-slate-200 flex items-center justify-center font-semibold"
def divider : String := "border-slate-200"
def progressTrack : String := "w-full bg-slate-200 rounded-full h-2"
def progressBar : String := "bg-blue-600 h-2 rounded-full"
def alertTitle : String := "block font-semibold"
def rating : String := "flex gap-1 text-amber-400"
def radioGroup : String := "space-y-2"
def breadcrumb : String := "flex items-center gap-2 text-sm text-slate-500"
def breadcrumbCurrent : String := "text-slate-900 font-medium"
def tag : String := "px-2 py-0.5 rounded bg-indigo-50 text-indigo-700 text-xs"
def statLabel : String := "text-sm text-slate-500"
def statValue : String := "text-2xl font-bold"
def statTrend : String := "text-xs text-green-600"
def quote : String := "border-l-4 border-slate-300 pl-4 italic"
def quoteAuthor : String := "block mt-2 text-sm not-italic text-slate-500"
def video : String := "w-full rounded-lg"
def map : String :=
  "w-full h-64 bg-slate-100 rounded-lg flex items-center justify-center text-slate-400"
def table : String := "w-full text-sm text-left"
def code : String := "bg-slate-900 text-slate-100 p-4 rounded-lg text-sm overflow-x-auto"
def unknown : String := "p-2 border border-red-300 text-red-500 text-xs"

end PageBuilder.Export.Look
