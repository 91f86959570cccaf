import ComponentDocs.Conversion.Heritage
import Mathlib.Data.List.Forall2

namespace ComponentDocs

namespace Tree

def comment (start stop : Nat) : Tree := ⟨.node "comment", none, start, stop, []⟩

mutual

/-- The second tree is the first one with comments put among the children of any nodes. Only the keyword of a predefined
type has to stay the first child. -/
inductive Commented (inserted : Tree → Prop) : Tree → Tree → Prop where
  | node {kind : Kind} {field : Option String} {start stop : Nat} {plain commented : List Tree}
      (children : CommentedAll inserted (kind.name != "predefined_type") plain commented) :
      Commented inserted ⟨kind, field, start, stop, plain⟩ ⟨kind, field, start, stop, commented⟩

/-- The same for a list of trees; `free` says whether comments may stand between them. -/
inductive CommentedAll (inserted : Tree → Prop) : (free : Bool) → List Tree → List Tree → Prop where
  | nil {free : Bool} : CommentedAll inserted free [] []
  | keep {free : Bool} {first first' : Tree} {rest rest' : List Tree} (here : Commented inserted first first')
      (later : CommentedAll inserted free rest rest') : CommentedAll inserted free (first :: rest) (first' :: rest')
  | insert {start stop : Nat} {rest rest' : List Tree} (new : inserted (comment start stop))
      (later : CommentedAll inserted true rest rest') : CommentedAll inserted true rest (comment start stop :: rest')

end

variable {inserted : Tree → Prop}

theorem Commented.kind {plain commented : Tree} (spread : Commented inserted plain commented) :
    commented.kind = plain.kind := by
  cases spread
  rfl

theorem Commented.field {plain commented : Tree} (spread : Commented inserted plain commented) :
    commented.field = plain.field := by
  cases spread
  rfl

theorem Commented.text {plain commented : Tree} (spread : Commented inserted plain commented)
    (source : Utf8.Bytes) : commented.text source = plain.text source := by
  cases spread
  rfl

theorem Commented.children {plain commented : Tree} (spread : Commented inserted plain commented) :
    ∃ free, CommentedAll inserted free plain.children commented.children := by
  cases spread with
  | node children => exact ⟨_, children⟩

theorem Commented.isContent {plain commented : Tree} (spread : Commented inserted plain commented) :
    commented.isContent = plain.isContent := by
  rw [Tree.isContent, Tree.isContent, Tree.isComment, Tree.isComment, spread.kind]

theorem Commented.fills {plain commented : Tree} (spread : Commented inserted plain commented) (name : String) :
    commented.fills name = plain.fills name := by
  rw [Tree.fills, Tree.fills, spread.field]

theorem CommentedAll.filter {selects : Tree → Bool}
    (same : ∀ plain commented, Commented inserted plain commented → selects commented = selects plain)
    (skips : ∀ start stop, selects (comment start stop) = false) {free : Bool} {plain commented : List Tree}
    (spread : CommentedAll inserted free plain commented) :
    List.Forall₂ (Commented inserted) (plain.filter selects) (commented.filter selects) := by
  induction commented generalizing plain free with
  | nil =>
    cases spread
    exact .nil
  | cons first rest ih =>
    cases spread with
    | keep here later =>
      rw [List.filter_cons, List.filter_cons, same _ _ here]
      split
      · exact .cons here (ih later)
      · exact ih later
    | @insert start stop _ _ _ later =>
      rw [List.filter_cons_of_neg (by simp [skips start stop])]
      exact ih later

theorem map_eq_of_forall₂ {α : Type} {f : Tree → α}
    (read : ∀ plain commented, Commented inserted plain commented → f commented = f plain) {plain commented : List Tree}
    (all : List.Forall₂ (Commented inserted) plain commented) : commented.map f = plain.map f := by
  induction all with
  | nil => rfl
  | cons here _ ih => rw [List.map_cons, List.map_cons, read _ _ here, ih]

theorem filterMap_eq_of_forall₂ {α : Type} {f : Tree → Option α}
    (read : ∀ plain commented, Commented inserted plain commented → f commented = f plain) {plain commented : List Tree}
    (all : List.Forall₂ (Commented inserted) plain commented) : commented.filterMap f = plain.filterMap f := by
  have found := congrArg (List.filterMap id) (map_eq_of_forall₂ read all)
  rwa [List.filterMap_map, List.filterMap_map] at found

theorem head?_related {related : Tree → Tree → Prop} {plain commented : List Tree}
    (all : List.Forall₂ related plain commented) : Option.Rel related plain.head? commented.head? := by
  cases all with
  | nil => exact .none
  | cons here _ => exact .some here

theorem getLast?_related {related : Tree → Tree → Prop} {plain commented : List Tree}
    (all : List.Forall₂ related plain commented) : Option.Rel related plain.getLast? commented.getLast? := by
  rw [List.getLast?_eq_head?_reverse, List.getLast?_eq_head?_reverse]
  exact head?_related (List.rel_reverse all)

theorem rel_or {related : Tree → Tree → Prop} {first first' second second' : Option Tree}
    (here : Option.Rel related first first') (otherwise : Option.Rel related second second') :
    Option.Rel related (first.or second) (first'.or second') := by
  cases here with
  | none => exact otherwise
  | some found => exact .some found

theorem CommentedAll.field? {free : Bool} {plain commented : List Tree}
    (spread : CommentedAll inserted free plain commented) (name : String) :
    Option.Rel (Commented inserted) (Tree.field? name plain) (Tree.field? name commented) := by
  have filtered := spread.filter (fun _ _ here => Commented.fills here name) (fun _ _ => rfl)
  have first := head?_related filtered
  rwa [List.head?_filter, List.head?_filter] at first

theorem CommentedAll.content? {free : Bool} {plain commented : List Tree}
    (spread : CommentedAll inserted free plain commented) :
    Option.Rel (Commented inserted) (Tree.content? plain) (Tree.content? commented) := by
  have filtered := spread.filter (fun _ _ here => Commented.isContent here) (fun _ _ => rfl)
  have first := head?_related filtered
  rwa [List.head?_filter, List.head?_filter] at first

end Tree

namespace Conversion

open Utf8 (Bytes)
open ComponentDocs.Tree (Commented CommentedAll)

variable {inserted : Tree → Prop}

theorem token_commented (source : Bytes) {plain commented : Tree} (spread : Commented inserted plain commented) :
    token source commented = token source plain := by
  rw [token, token, Tree.nameText, Tree.nameText, spread.kind, spread.text]

theorem isNamed_commented (name : String) {plain commented : Tree} (spread : Commented inserted plain commented) :
    isNamed name commented = isNamed name plain := by
  rw [isNamed, isNamed, spread.kind]

theorem map_eq_of_rel {α : Type} {f : Tree → α}
    (same : ∀ plain commented, Commented inserted plain commented → f commented = f plain)
    {plain commented : Option Tree} (spread : Option.Rel (Commented inserted) plain commented) :
    commented.map f = plain.map f := by
  cases spread with
  | none => rfl
  | some here => exact congrArg some (same _ _ here)

theorem tokenField_commented (source : Bytes) (name : String) {free : Bool} {plain commented : List Tree}
    (spread : CommentedAll inserted free plain commented) :
    tokenField source name commented = tokenField source name plain :=
  map_eq_of_rel (fun _ _ => token_commented source) (spread.field? name)

mutual

theorem expr_commented (source : Bytes) {plain commented : Tree} :
    Commented inserted plain commented → expr source commented = expr source plain
  | @Commented.node _ kind _ _ _ _ _ children => by
    rw [expr, expr]
    cases ExprSort.of kind.name with
    | verbatim | string | other => rfl
    | parenthesized => rw [exprContent_commented source children]
    | access => rw [exprField_commented source "object" children, tokenField_commented source "property" children]
    | call => rw [exprField_commented source "function" children, callArguments_commented source children]
    | object => rw [properties_commented source children]

theorem exprContent_commented (source : Bytes) {free : Bool} {plain commented : List Tree} :
    CommentedAll inserted free plain commented → exprContent source commented = exprContent source plain
  | .nil => rfl
  | .keep here later => by
    rw [exprContent, exprContent, here.isContent, expr_commented source here, exprContent_commented source later]
  | .insert _ later => by
    have skipped := exprContent_commented source later
    exact skipped

theorem exprField_commented (source : Bytes) (name : String) {free : Bool} {plain commented : List Tree} :
    CommentedAll inserted free plain commented → exprField source name commented = exprField source name plain
  | .nil => rfl
  | .keep here later => by
    rw [exprField, exprField, here.fills, expr_commented source here, exprField_commented source name later]
  | .insert _ later => by
    have skipped := exprField_commented source name later
    exact skipped

theorem callArguments_commented (source : Bytes) {free : Bool} {plain commented : List Tree} :
    CommentedAll inserted free plain commented → callArguments source commented = callArguments source plain
  | .nil => rfl
  | .keep (.node children) later => by
    rw [callArguments, callArguments, exprs_commented source children, callArguments_commented source later]
  | .insert _ later => by
    have skipped := callArguments_commented source later
    exact skipped

theorem exprs_commented (source : Bytes) {free : Bool} {plain commented : List Tree} :
    CommentedAll inserted free plain commented → exprs source commented = exprs source plain
  | .nil => rfl
  | .keep here later => by
    rw [exprs, exprs, here.isContent, expr_commented source here, exprs_commented source later]
  | .insert _ later => by
    have skipped := exprs_commented source later
    exact skipped

theorem properties_commented (source : Bytes) {free : Bool} {plain commented : List Tree} :
    CommentedAll inserted free plain commented → properties source commented = properties source plain
  | .nil => rfl
  | .keep (.node children) later => by
    rw [properties, properties, tokenField_commented source "key" children,
      exprField_commented source "value" children, properties_commented source later]
    rfl
  | .insert _ later => by
    have skipped := properties_commented source later
    exact skipped

end

theorem literal_commented (source : Bytes) {plain commented : Tree} (spread : Commented inserted plain commented) :
    literal source commented = literal source plain := by
  obtain ⟨free, children⟩ := spread.children
  have operand := map_eq_of_rel (fun _ _ => Commented.kind) (children.field? "argument")
  rw [literal, literal, operand, spread.kind, spread.text, expr_commented source spread]

mutual

theorem base_commented (source : Bytes) {plain commented : Tree} :
    Commented inserted plain commented → base source commented = base source plain
  | @Commented.node _ kind field start stop plain commented children => by
    have whole := expr_commented source (@Commented.node _ kind field start stop _ _ children)
    rw [base.eq_def, base.eq_def]
    dsimp only
    cases BaseSort.of kind.name with
    | typeName => rfl
    | other => exact whole
    | qualifiedType => rw [baseField_commented source "module" children, tokenField_commented source "name" children]
    | qualifiedName =>
      have parts := children.filter (fun _ _ here => Commented.isContent here) (fun _ _ => rfl)
      have first := baseContent_commented source children
      dsimp only
      generalize plain.filter Tree.isContent = left at parts ⊢
      generalize commented.filter Tree.isContent = right at parts ⊢
      -- both have two parts, or neither has
      rcases parts with _ | ⟨_, _ | ⟨name, _ | _⟩⟩
      · exact whole
      · exact whole
      · dsimp only
        rw [first, token_commented source name]
      · exact whole

theorem baseField_commented (source : Bytes) (name : String) {free : Bool} {plain commented : List Tree} :
    CommentedAll inserted free plain commented → baseField source name commented = baseField source name plain
  | .nil => rfl
  | .keep here later => by
    rw [baseField, baseField, here.fills, base_commented source here, baseField_commented source name later]
  | .insert _ later => by
    have skipped := baseField_commented source name later
    exact skipped

theorem baseContent_commented (source : Bytes) {free : Bool} {plain commented : List Tree} :
    CommentedAll inserted free plain commented → baseContent source commented = baseContent source plain
  | .nil => rfl
  | .keep here later => by
    rw [baseContent, baseContent, here.isContent, base_commented source here, baseContent_commented source later]
  | .insert _ later => by
    have skipped := baseContent_commented source later
    exact skipped

end

end Conversion

end ComponentDocs
