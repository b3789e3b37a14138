/-
  Text inside markup.

  Programs:       `escapeText` between tags, `escapeAttribute` inside double quotes.
  Specification:  between tags no angle bracket and no brace is left, so no text ends a tag or starts
                  an expression; inside quotes no quote is left.  An ampersand is always written as a
                  reference, so text that looks like a reference stays text.
-/
namespace PageBuilder.Markup

/-- A character between tags. -/
def textCharacter (c : Char) : List Char :=
  if c = '&' then ['&', 'a', 'm', 'p', ';']
  else if c = '<' then ['&', 'l', 't', ';']
  else if c = '>' then ['&', 'g', 't', ';']
  else if c = '{' then ['&', '#', '1', '2', '3', ';']
  else if c = '}' then ['&', '#', '1', '2', '5', ';']
  else [c]

/-- A character inside double quotes. -/
def attributeCharacter (c : Char) : List Char :=
  if c = '&' then ['&', 'a', 'm', 'p', ';']
  else if c = '"' then ['&', 'q', 'u', 'o', 't', ';']
  else [c]

/-- **Text between tags**. -/
def escapeText (s : String) : String := String.ofList (s.toList.flatMap textCharacter)

/-- **A value inside double quotes**. -/
def escapeAttribute (s : String) : String := String.ofList (s.toList.flatMap attributeCharacter)

example : escapeText "a < b & c" = "a &lt; b &amp; c" := by decide +kernel

end PageBuilder.Markup
