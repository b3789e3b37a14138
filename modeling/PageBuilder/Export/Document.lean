/-
  A tree as a whole document.

  Program:        `document`.
  Specification:  one dialect wraps the markup in a function that returns it, the other in a template
                  with an empty script behind it.
-/
import PageBuilder.Export.Fragment

namespace PageBuilder.Export

open Markup

/-- Choices for a document. -/
structure Options where
  /-- Name of the exported component. -/
  component : String := "ExportedComponent"
  /-- Blanks per level. -/
  width : Nat := 2
deriving DecidableEq, Repr

/-- **The document** of a tree. -/
def document (d : Dialect) (o : Options) (n : Node) : String :=
  let unit := indentation o.width 1
  String.intercalate "\n" <|
    match d with
    | .react =>
      ["import React from 'react';", "", "export default function " ++ o.component ++ "() \x7b",
        unit ++ "return (", fragmentText d o.width 2 n, unit ++ ");", "\x7d"]
    | .vue =>
      ["<template>", fragmentText d o.width 1 n, "</template>", "", "<script setup>",
        "// No reactive state needed for static export", "</script>"]

end PageBuilder.Export
