import ComponentDocs.Proofs.Shape.Conversion
import ComponentDocs.Proofs.Shape.Reading

namespace ComponentDocs

open Utf8 (Bytes)
open ComponentDocs.Tree (Grammatical)

/-- No source, offsets, kinds or gaps make conversion or extraction fail: the only obstacles are the four that the
grammar rules out. -/
theorem grammatical_tree_extracted (source : Bytes) (fileName path : RawText) {root : Tree}
    (grammatical : root.Everywhere Grammatical) :
    ∃ file, Conversion.sourceFile source fileName root = .ok file ∧ file.Shaped tsxCatalog ∧
      ∃ components, file.components tsxCatalog path = .ok components := by
  obtain ⟨file, converted, shaped⟩ := Conversion.sourceFile_succeeds source fileName grammatical
  obtain ⟨components, read, _⟩ := SourceFile.components_succeeds shaped path
  exact ⟨file, converted, shaped, components, read⟩

/-- A class that extends a call, over a props type with a union of a signed number and a type in parentheses; the body
is an error node, names are missing, and offsets lie outside the source. -/
def damagedTree : Tree :=
  ⟨.node "program", none, 0, 99,
    [⟨.node "ERROR", none, 3, 1, []⟩,
      ⟨.node "export_statement", none, 0, 9,
        [⟨.keyword "export", none, 0, 2, []⟩,
          ⟨.node "class_declaration", some "declaration", 2, 9,
            [⟨.node "class_heritage", none, 2, 4,
                [⟨.node "extends_clause", none, 2, 4,
                    [⟨.node "call_expression", some "value", 2, 3, []⟩,
                      ⟨.node "type_arguments", none, 3, 4, [⟨.node "type_identifier", none, 3, 4, []⟩]⟩]⟩]⟩,
              ⟨.node "ERROR", some "body", 4, 9, [⟨.keyword "static", none, 5, 6, []⟩]⟩]⟩]⟩,
      ⟨.node "interface_declaration", none, 9, 20,
        [⟨.node "interface_body", some "body", 10, 20,
            [⟨.node "property_signature", none, 11, 19,
                [⟨.node "type_annotation", some "type", 12, 19,
                    [⟨.node "union_type", none, 12, 19,
                        [⟨.node "literal_type", none, 12, 14,
                            [⟨.node "unary_expression", none, 12, 14,
                                [⟨.node "number", some "argument", 13, 14, []⟩]⟩]⟩,
                          ⟨.node "parenthesized_type", none, 15, 19,
                            [⟨.node "comment", none, 15, 16, []⟩,
                              ⟨.node "generic_type", none, 16, 18,
                                [⟨.node "type_identifier", some "name", 16, 17, []⟩]⟩]⟩]⟩]⟩]⟩]⟩]⟩]⟩

theorem damaged_tree_extracted :
    damagedTree.Everywhere Grammatical ∧
      ∃ file, Conversion.sourceFile [] "Damaged.tsx" damagedTree = .ok file ∧ file.Shaped tsxCatalog ∧
        ∃ components, file.components tsxCatalog "src" = .ok components := by
  have grammatical : damagedTree.Everywhere Grammatical := by decide
  exact ⟨grammatical, grammatical_tree_extracted [] "Damaged.tsx" "src" grammatical⟩

end ComponentDocs
