import ComponentDocs.Proofs.Comments.Conversion

namespace ComponentDocs

open Utf8 (Bytes)
open ComponentDocs.Tree (Commented CommentedAll)

namespace Conversion

theorem sourceFile_commented {source : Bytes} {view : List (DocComment Kind) → List (DocComment Kind)}
    {inserted : Tree → Prop} (hides : Hides source view inserted) (fileName : RawText) {plain commented : Tree}
    (spread : Commented inserted plain commented) :
    Agree (fun a b => SourceFile.mapDocs view a = SourceFile.mapDocs view b)
      (sourceFile source fileName plain) (sourceFile source fileName commented) := by
  obtain ⟨_, children⟩ := spread.children
  rw [sourceFile, sourceFile, spread.kind]
  refine (statements_commented hides (SeenAlike.refl []) commented.children children).bind ?_
  intro statements statements' same
  refine .pure ?_
  rw [SourceFile.mapDocs, SourceFile.mapDocs, same]

end Conversion

/-- Comments that are put into a tree, at any places but beside the keyword of a predefined type, leave the outcome of
its conversion as it was apart from doc comments; if none of them is a doc comment, they leave it exactly as it was. -/
theorem inserted_comments_ignored (source : Bytes) (fileName : RawText) {inserted : Tree → Prop} {plain commented : Tree}
    (spread : Commented inserted plain commented) :
    (Conversion.sourceFile source fileName plain).map SourceFile.withoutDocs =
        (Conversion.sourceFile source fileName commented).map SourceFile.withoutDocs ∧
      ((∀ comment, inserted comment → DocBlock.isDocBlock (comment.text source).toList = false) →
        Conversion.sourceFile source fileName plain = Conversion.sourceFile source fileName commented) := by
  constructor
  · have hidesAll : Conversion.Hides source (fun _ => []) inserted := fun _ _ _ _ => rfl
    exact (Conversion.sourceFile_commented hidesAll fileName spread).map_eq
  · intro noDocs
    have hidesNothing : Conversion.Hides source (fun docs => docs) inserted := by
      intro comment new before after
      rw [Conversion.docComment?, noDocs comment new]
      simp
    have agree := Conversion.sourceFile_commented hidesNothing fileName spread
    simp only [SourceFile.mapDocs_id] at agree
    exact agree.eq

def aliasTree : Tree :=
  ⟨.node "program", none, 0, 30,
    [⟨.node "type_alias_declaration", none, 0, 30,
        [⟨.node "type_identifier", some "name", 5, 6, []⟩,
          ⟨.node "union_type", some "value", 9, 30,
            [⟨.node "type_identifier", none, 9, 10, []⟩,
              ⟨.node "predefined_type", none, 24, 30, [⟨.keyword "number", none, 24, 30, []⟩]⟩]⟩]⟩]⟩

def commentedAliasTree : Tree :=
  ⟨.node "program", none, 0, 30,
    [.comment 13 23,
      ⟨.node "type_alias_declaration", none, 0, 30,
        [⟨.node "type_identifier", some "name", 5, 6, []⟩,
          ⟨.node "union_type", some "value", 9, 30,
            [⟨.node "type_identifier", none, 9, 10, []⟩, .comment 13 23,
              ⟨.node "predefined_type", none, 24, 30, [⟨.keyword "number", none, 24, 30, []⟩]⟩]⟩]⟩]⟩

def aliasSource : Bytes := Utf8.encode "type A = B | /* none */ number".toList

theorem alias_comments_ignored :
    Commented (· = .comment 13 23) aliasTree commentedAliasTree ∧
      Conversion.sourceFile aliasSource "A.ts" aliasTree =
        Conversion.sourceFile aliasSource "A.ts" commentedAliasTree := by
  have spread : Commented (· = .comment 13 23) aliasTree commentedAliasTree :=
    .node (.insert rfl (.keep (.node (.keep (.node .nil) (.keep (.node (.keep (.node .nil) (.insert rfl
      (.keep (.node (.keep (.node .nil) .nil)) .nil)))) .nil))) .nil))
  refine ⟨spread, (inserted_comments_ignored aliasSource "A.ts" spread).2 ?_⟩
  rintro comment rfl
  decide

end ComponentDocs
