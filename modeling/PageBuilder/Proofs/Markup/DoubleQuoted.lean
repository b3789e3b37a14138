/-
  Literals in double quotes are JSON text.

  Program:        `literal .double`, which `Attribute.code .react` puts where a component has an
                  expression.
  Specification:  `literal_double_reads` — without fractions a literal is the compact text of its value,
                  character for character, and reading that text gives back the value.
  Crux:           `literal_double_eq` — the two writers part ways at a number only: where the compact
                  style puts nothing between tokens, they agree on every token, and so, by induction
                  on values, items and fields together, on every nesting of them.
-/
import PageBuilder.Markup.Attribute
import PageBuilder.Proofs.Markup.Literal

namespace PageBuilder.Markup

mutual
/-- **Two writers agree**: a literal in double quotes is the compact text of its value, at whichever
level that text starts. -/
theorem literal_double_eq (level : Nat) : ∀ v : Json, (∀ n ∈ v.numbers, ∃ i, n = .whole i) →
    literal .double v = Json.write .compact level v
  | .null, _ | .bool true, _ | .bool false, _ | .string _, _ => rfl
  | .number n, h => by
    -- a literal has a zero for a number that is not finite, and JSON null; whole numbers are finite
    obtain ⟨i, rfl⟩ := h n List.mem_cons_self
    rfl
  | .array [], _ => rfl
  | .array (x :: xs), h => by
    -- the compact style breaks no lines, so the level does not show
    obtain ⟨hx, hxs⟩ := List.forall_mem_append.1 h
    rw [literal, literal_double_eq (level + 1) x hx, literalItems_double_eq (level + 1) xs hxs,
      Json.write]
    simp only [Json.Style.compact, List.nil_append, List.append_nil]
  | .object [], _ => rfl
  | .object ((k, v) :: fs), h => by
    obtain ⟨hv, hfs⟩ := List.forall_mem_append.1 h
    rw [literal, literal_double_eq (level + 1) v hv, literalFields_double_eq (level + 1) fs hfs,
      Json.write]
    simp only [Json.Style.compact, List.nil_append, List.append_nil, List.append_assoc]
    rfl

/-- The items after the first are written alike. -/
theorem literalItems_double_eq (level : Nat) : ∀ xs : List Json,
    (∀ n ∈ Json.itemNumbers xs, ∃ i, n = .whole i) →
    literalItems .double xs = Json.writeItems .compact level xs
  | [], _ => rfl
  | x :: xs, h => by
    obtain ⟨hx, hxs⟩ := List.forall_mem_append.1 h
    rw [literalItems, literal_double_eq level x hx, literalItems_double_eq level xs hxs,
      Json.writeItems]
    rfl

theorem literalFields_double_eq (level : Nat) : ∀ fs : List (String × Json),
    (∀ n ∈ Json.fieldNumbers fs, ∃ i, n = .whole i) →
    literalFields .double fs = Json.writeFields .compact level fs
  | [], _ => rfl
  | (k, v) :: fs, h => by
    obtain ⟨hv, hfs⟩ := List.forall_mem_append.1 h
    rw [literalFields, literal_double_eq level v hv, literalFields_double_eq level fs hfs,
      Json.writeFields]
    rfl
end

/-- **A literal in double quotes is JSON text**: it is the compact text of its value, and a reader
that allows the nesting of the value gets back that value, the order of its keys included. -/
theorem literal_double_reads {v : Json} (hv : Integral v) :
    String.ofList (literal .double v) = v.compact ∧ Attribute.code .react v = v.compact ∧
    ∀ room, (Json.Source.ofText? (String.ofList (literal .double v))).bind (Json.Source.value? room)
      = if v.depth ≤ room then some v else none := by
  have htext : String.ofList (literal .double v) = v.compact :=
    congrArg String.ofList (literal_double_eq 0 v hv.whole)
  refine ⟨htext, htext, fun room => ?_⟩
  rw [htext, Json.compact, Json.ofText?_write Json.Style.blank_compact, Option.bind_some,
    Json.value?_spell v room hv.faithful]

/-- Options with empty brackets of both kinds, and signs and controls in keys and strings. -/
def nestedOptions : Json :=
  .array [.object [], .array [.array []],
    .object [("b\"\n", .string "\x01 \\ it's \t&"), ("", .number (.whole (-5))),
      ("a", .array [.null, .bool true])]]

/-- The law on options inside options. -/
theorem literal_double_reads_nestedOptions :
    Integral nestedOptions ∧ Attribute.code .react nestedOptions = nestedOptions.compact ∧
    Json.ofText? (String.ofList (literal .double nestedOptions)) = some nestedOptions := by
  have hv : Integral nestedOptions := ⟨by decide, by decide⟩
  have hdepth : nestedOptions.depth ≤ Json.maxDepth := by decide
  obtain ⟨-, hcode, hread⟩ := literal_double_reads hv
  refine ⟨hv, hcode, ?_⟩
  rw [Json.ofText?, hread, if_pos hdepth]

end PageBuilder.Markup
