/-
  Sample rows from a language model.

  Programs:       `requestBody`, `rowsOfReply?`, `url`.
  Specification:  the model is asked for a JSON array of rows, with a schema of what a row is; its
                  reply holds the array as TEXT inside a JSON value, and that text must spell rows
                  and nothing else.
-/
import PageBuilder.ListItem
import PageBuilder.Text.Blank

namespace PageBuilder.Generation

/-- Where requests go unless configured. -/
def defaultEndpoint : String := "https://generativelanguage.googleapis.com/v1beta"

/-- The model that is asked unless configured. -/
def defaultModel : String := "gemini-3-pro-preview"

/-- The address of a model at an endpoint, slashes at its end aside. -/
def url (endpoint model : String) : String :=
  let trimmed := (endpoint.toList.reverse.dropWhile (· == '/')).reverse
  String.ofList trimmed ++ "/models/" ++ model ++ ":generateContent"

/-- What the model is told around a user's request. -/
def instructions (prompt : String) : String :=
  "You are Orion AI, a specialized Data Generator for a UI library.\n\n"
    ++ "User Request: \"" ++ prompt ++ "\"\n\n"
    ++ "Your task is to generate a JSON array of items suitable for a dashboard list component.\n\n"
    ++ "Each item must strictly follow this schema:\n"
    ++ "- id: string (unique)\n"
    ++ "- title: string (main text)\n"
    ++ "- subtitle: string (secondary text, short description)\n"
    ++ "- value: string (numeric value, price, or metric)\n"
    ++ "- badge: string (short status label like 'High', 'Buy', '+5%')\n\n"
    ++ "Generate 3 to 6 items.\n"
    ++ "Ensure the data is realistic and strictly matches the user's request."

/-- Schema of a text. -/
def textSchema : Json := .object [("type", .string "STRING")]

/-- Schema of an array of rows. -/
def rowsSchema : Json :=
  .object [("type", .string "ARRAY"),
    ("items", .object [("type", .string "OBJECT"),
      ("properties", .object (ListItem.fieldNames.map fun k => (k, textSchema))),
      ("required", .array [.string "id", .string "title"])])]

/-- **The request** for rows. -/
def requestBody (prompt : String) : Json :=
  .object [("contents", .array [.object [("parts", .array [.object
      [("text", .string (instructions prompt))]])]]),
    ("generationConfig", .object [("responseMimeType", .string "application/json"),
      ("responseSchema", rowsSchema)])]

/-- A step into a value: a field, or an item, which an object may hold under its number. -/
inductive Step where
  | field (k : String)
  | item (i : Nat)
deriving DecidableEq, Repr

/-- Follow a step. -/
def Step.follow? (v : Json) : Step → Option Json
  | .field k => v.field? k
  | .item i => (v.item? i).or (v.field? (toString i))

/-- Where a reply holds its text. -/
def textPath : List Step :=
  [.field "candidates", .item 0, .field "content", .field "parts", .item 0, .field "text"]

/-- The text of a reply, unless it is blank. -/
def replyText? (reply : Json) : Option String :=
  ((textPath.foldlM Step.follow? reply).bind Json.string?).filter fun s => !Text.allBlank s

/-- **The rows** of a reply. -/
def rowsOfReply? (reply : Json) : Option (List ListItem) :=
  (replyText? reply).bind ListItem.listOfText?

end PageBuilder.Generation
