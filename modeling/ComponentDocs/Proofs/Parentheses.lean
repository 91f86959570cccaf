import ComponentDocs.Proofs.Reordering.Components

/-! Parentheses around parts of the expressions that a file exports. They make no difference to the names that are
exported, but around a call that is called in turn: what is handed out inside of it is then overlooked. -/

namespace ComponentDocs

variable {κ : Type} [DecidableEq κ] {catalog : Catalog κ}

/-- The kinds of parentheses are those of neither names nor calls, as in any catalog of distinct kinds. -/
def Catalog.TellsParentheses (catalog : Catalog κ) : Prop :=
  ∀ kind, catalog.isParenthesized kind → catalog.isIdentifier kind = false ∧ catalog.isCall kind = false

mutual

/-- The second expression is the first one with parentheses around any of its parts. A call that is kept does not get
any where it is called. -/
inductive Expr.Wrapped (catalog : Catalog κ) (kept : Expr κ → Prop) : Expr κ → Expr κ → Prop where
  | same (value : Expr κ) : Expr.Wrapped catalog kept value value
  | around {value value' : Expr κ} {kind : κ} {text : String} (parentheses : catalog.isParenthesized kind)
      (inside : Expr.Wrapped catalog kept value value') :
      Expr.Wrapped catalog kept value ⟨kind, text, .parenthesized (some value')⟩
  | parenthesized {value value' : Expr κ} {kind : κ} {text : String} (inside : Expr.Wrapped catalog kept value value') :
      Expr.Wrapped catalog kept ⟨kind, text, .parenthesized (some value)⟩ ⟨kind, text, .parenthesized (some value')⟩
  | access {value value' : Expr κ} {kind : κ} {text : String} {name : Option (Token κ)}
      (inside : Expr.Wrapped catalog kept value value') :
      Expr.Wrapped catalog kept ⟨kind, text, .access (some value) name⟩ ⟨kind, text, .access (some value') name⟩
  | call {callee callee' : Option (Expr κ)} {arguments arguments' : List (Expr κ)} {kind : κ} {text : String}
      (called : Expr.WrappedCallee catalog kept callee callee')
      (given : Expr.WrappedAll catalog kept arguments arguments') :
      Expr.Wrapped catalog kept ⟨kind, text, .call callee arguments⟩ ⟨kind, text, .call callee' arguments'⟩
  | object {properties properties' : List (Property κ)} {kind : κ} {text : String}
      (listed : Property.WrappedAll catalog kept properties properties') :
      Expr.Wrapped catalog kept ⟨kind, text, .object properties⟩ ⟨kind, text, .object properties'⟩

inductive Expr.WrappedCallee (catalog : Catalog κ) (kept : Expr κ → Prop) :
    Option (Expr κ) → Option (Expr κ) → Prop where
  | none : Expr.WrappedCallee catalog kept none none
  | some {value value' : Expr κ} (inside : Expr.Wrapped catalog kept value value')
      (bare : kept value → catalog.isCall value.kind → catalog.isCall value'.kind) :
      Expr.WrappedCallee catalog kept (some value) (some value')

inductive Expr.WrappedAll (catalog : Catalog κ) (kept : Expr κ → Prop) : List (Expr κ) → List (Expr κ) → Prop where
  | nil : Expr.WrappedAll catalog kept [] []
  | cons {first first' : Expr κ} {rest rest' : List (Expr κ)} (here : Expr.Wrapped catalog kept first first')
      (later : Expr.WrappedAll catalog kept rest rest') : Expr.WrappedAll catalog kept (first :: rest) (first' :: rest')

inductive Property.WrappedAll (catalog : Catalog κ) (kept : Expr κ → Prop) :
    List (Property κ) → List (Property κ) → Prop where
  | nil : Property.WrappedAll catalog kept [] []
  | keep {first : Property κ} {rest rest' : List (Property κ)} (later : Property.WrappedAll catalog kept rest rest') :
      Property.WrappedAll catalog kept (first :: rest) (first :: rest')
  | value {kind : κ} {name : Option (Token κ)} {value value' : Expr κ} {rest rest' : List (Property κ)}
      (inside : Expr.Wrapped catalog kept value value') (later : Property.WrappedAll catalog kept rest rest') :
      Property.WrappedAll catalog kept (⟨kind, name, some value⟩ :: rest) (⟨kind, name, some value'⟩ :: rest')

end

inductive Statement.Wrapped (catalog : Catalog κ) (kept : Expr κ → Prop) : Statement κ → Statement κ → Prop where
  | same (statement : Statement κ) : Statement.Wrapped catalog kept statement statement
  | exported {kind : κ} {docs : List (DocComment κ)} {modifiers : List (Token κ)} {value value' : Expr κ}
      (inside : value.Wrapped catalog kept value') :
      Statement.Wrapped catalog kept ⟨kind, docs, modifiers, .exportValue (some value)⟩
        ⟨kind, docs, modifiers, .exportValue (some value')⟩

/-- Two searches both have an answer. A name that the second one finds is found by the first one, and where nothing is
overlooked the answers are the same. -/
def Fades (safe : Prop) (before after : Except Malformed Bool) : Prop :=
  ∃ found left, before = .ok found ∧ after = .ok left ∧ (left = true → found = true) ∧ (safe → left = found)

namespace Fades

variable {safe : Prop} {before after : Except Malformed Bool}

theorem refl (returns : Returns before) : Fades safe before before := by
  obtain ⟨found, computed, -⟩ := returns
  exact ⟨found, found, computed, computed, id, fun _ => rfl⟩

theorem orElse {second second' : Except Malformed Bool} (first : Fades safe before after)
    (next : Fades safe second second') :
    Fades safe (before >>= fun found => if found = true then pure true else second)
      (after >>= fun found => if found = true then pure true else second') := by
  obtain ⟨found, left, rfl, rfl, lost, same⟩ := first
  obtain ⟨found', left', rfl, rfl, lost', same'⟩ := next
  cases found with
  | true =>
    cases left with
    | true => exact ⟨true, true, rfl, rfl, id, fun _ => rfl⟩
    | false => exact ⟨true, left', rfl, rfl, fun _ => rfl, fun all => by cases same all⟩
  | false =>
    cases left with
    | true => cases lost rfl
    | false => exact ⟨found', left', rfl, rfl, lost', same'⟩

end Fades

def Expr.KeepsCallees (catalog : Catalog κ) (kept : Expr κ → Prop) (name : String) : Prop :=
  ∀ callee, catalog.isCall callee.kind → callee.hands catalog name = .ok true → kept callee

def Expr.calleeHands (catalog : Catalog κ) (name : String) : Option (Expr κ) → Except Malformed Bool
  | none => .ok false
  | some callee => if catalog.isCall callee.kind then callee.hands catalog name else .ok false

theorem Expr.hands_parenthesized (told : catalog.TellsParentheses) (name : String) {kind : κ} (text : String)
    (value : Expr κ) (parentheses : catalog.isParenthesized kind) :
    Expr.hands catalog name ⟨kind, text, .parenthesized (some value)⟩ = value.hands catalog name := by
  rw [Expr.hands, (told kind parentheses).1, if_neg Bool.false_ne_true, if_pos parentheses]

theorem Expr.hands_call (name : String) {kind : κ} (text : String) (callee : Option (Expr κ))
    (arguments : List (Expr κ)) (notName : ¬ catalog.isIdentifier kind)
    (notParentheses : ¬ catalog.isParenthesized kind) (call : catalog.isCall kind) :
    Expr.hands catalog name ⟨kind, text, .call callee arguments⟩ =
      Expr.anyHands catalog name arguments >>= fun found =>
        if found = true then pure true else Expr.calleeHands catalog name callee := by
  rw [Expr.hands.eq_def]
  dsimp only
  rw [if_neg notName, if_neg notParentheses, if_pos call]
  cases callee <;> rfl

theorem Expr.fades_of_kind {safe : Prop} {name : String} {kind : κ} {text : String} {form form' : ExprForm κ}
    (shaped : Expr.Shaped catalog ⟨kind, text, form⟩)
    (parentheses : catalog.isParenthesized kind → (∃ inner, form = .parenthesized inner) →
      Fades safe (Expr.hands catalog name ⟨kind, text, form⟩) (Expr.hands catalog name ⟨kind, text, form'⟩))
    (call : ¬ catalog.isIdentifier kind → ¬ catalog.isParenthesized kind → catalog.isCall kind →
      (∃ callee arguments, form = .call callee arguments) →
      Fades safe (Expr.hands catalog name ⟨kind, text, form⟩) (Expr.hands catalog name ⟨kind, text, form'⟩)) :
    Fades safe (Expr.hands catalog name ⟨kind, text, form⟩) (Expr.hands catalog name ⟨kind, text, form'⟩) := by
  cases shaped with
  | node announced _ =>
    by_cases parenthesized : catalog.isParenthesized kind
    · exact parentheses parenthesized (announced.parenthesized parenthesized)
    by_cases identifier : catalog.isIdentifier kind
    · rw [Expr.hands.eq_def, Expr.hands.eq_def]
      simp only [identifier, if_true]
      exact .refl (.ok _)
    by_cases isCall : catalog.isCall kind
    · exact call identifier parenthesized isCall (announced.call isCall)
    · rw [Expr.hands.eq_def, Expr.hands.eq_def]
      simp only [identifier, parenthesized, isCall]
      exact .refl (.ok _)

theorem Expr.kind_of_wrapped {kept : Expr κ → Prop} {value value' : Expr κ}
    (wrapped : value.Wrapped catalog kept value') :
    value'.kind = value.kind ∨ catalog.isParenthesized value'.kind := by
  cases wrapped with
  | around parentheses _ => exact .inr parentheses
  | _ => exact .inl rfl

theorem Expr.Shaped.part {value part : Expr κ} (shaped : value.Shaped catalog) (inside : part ∈ value.form.parts) :
    part.Shaped catalog := by
  cases shaped with
  | node _ parts => exact parts part inside

section Searching

variable {kept : Expr κ → Prop}

mutual

theorem Expr.hands_wrapped (told : catalog.TellsParentheses) (name : String) {value value' : Expr κ} :
    value.Wrapped catalog kept value' → value.Shaped catalog →
      Fades (Expr.KeepsCallees catalog kept name) (value.hands catalog name) (value'.hands catalog name)
  | .same value, shaped => .refl (Expr.hands_succeeds name shaped)
  | .around parentheses inside, shaped => by
    rw [Expr.hands_parenthesized told name _ _ parentheses]
    exact Expr.hands_wrapped told name inside shaped
  | .parenthesized inside, shaped => by
    refine Expr.fades_of_kind shaped ?_ (fun _ _ _ ⟨_, _, form⟩ => nomatch form)
    intro parentheses _
    rw [Expr.hands_parenthesized told name _ _ parentheses, Expr.hands_parenthesized told name _ _ parentheses]
    exact Expr.hands_wrapped told name inside (shaped.part List.mem_cons_self)
  | .access _, shaped =>
    Expr.fades_of_kind shaped (fun _ ⟨_, form⟩ => nomatch form) (fun _ _ _ ⟨_, _, form⟩ => nomatch form)
  | .call called given, shaped => by
    refine Expr.fades_of_kind shaped (fun _ ⟨_, form⟩ => nomatch form) ?_
    intro notName notParentheses call _
    rw [Expr.hands_call name _ _ _ notName notParentheses call, Expr.hands_call name _ _ _ notName notParentheses call]
    apply Fades.orElse
    · exact Expr.anyHands_wrapped told name given fun argument member =>
        shaped.part (List.mem_append_right _ member)
    · exact Expr.calleeHands_wrapped told name called fun callee member =>
        shaped.part (List.mem_append_left _ (Option.mem_toList.mpr member))
  | .object _, shaped =>
    Expr.fades_of_kind shaped (fun _ ⟨_, form⟩ => nomatch form) (fun _ _ _ ⟨_, _, form⟩ => nomatch form)

theorem Expr.anyHands_wrapped (told : catalog.TellsParentheses) (name : String) {values values' : List (Expr κ)} :
    Expr.WrappedAll catalog kept values values' → (∀ value ∈ values, value.Shaped catalog) →
      Fades (Expr.KeepsCallees catalog kept name) (Expr.anyHands catalog name values)
        (Expr.anyHands catalog name values')
  | .nil, _ => .refl (.ok _)
  | .cons here later, shaped => by
    rw [Expr.anyHands, Expr.anyHands]
    apply Fades.orElse
    · exact Expr.hands_wrapped told name here (shaped _ List.mem_cons_self)
    · exact Expr.anyHands_wrapped told name later fun value member => shaped value (List.mem_cons_of_mem _ member)

/-- Here a name can get lost: a call that is called is searched only while it is bare. -/
theorem Expr.calleeHands_wrapped (told : catalog.TellsParentheses) (name : String) {callee callee' : Option (Expr κ)} :
    Expr.WrappedCallee catalog kept callee callee' → (∀ value ∈ callee, value.Shaped catalog) →
      Fades (Expr.KeepsCallees catalog kept name) (Expr.calleeHands catalog name callee)
        (Expr.calleeHands catalog name callee')
  | .none, _ => .refl (.ok _)
  | @Expr.WrappedCallee.some _ _ _ _ value value' inside bare, shaped => by
    have here := Expr.hands_wrapped told name inside (shaped value rfl)
    rw [Expr.calleeHands, Expr.calleeHands]
    by_cases call : catalog.isCall value.kind
    · rw [if_pos call]
      by_cases stays : catalog.isCall value'.kind
      · rw [if_pos stays]
        exact here
      · obtain ⟨found, -, computed, -⟩ := here
        rw [if_neg stays]
        -- the call is in parentheses now, so that it cannot be one that is kept
        refine ⟨found, false, computed, rfl, nofun, ?_⟩
        intro keeps
        cases found with
        | false => rfl
        | true => exact absurd (bare (keeps value call computed) call) stays
    · have stays : ¬ catalog.isCall value'.kind := by
        rcases Expr.kind_of_wrapped inside with same | parentheses
        · rw [same]
          exact call
        · rw [(told _ parentheses).2]
          exact Bool.false_ne_true
      rw [if_neg call, if_neg stays]
      exact .refl (.ok _)

end

theorem Statement.exports_wrapped (told : catalog.TellsParentheses) (name : String) {statement statement' : Statement κ}
    (wrapped : statement.Wrapped catalog kept statement') (shaped : statement.Shaped catalog) :
    Fades (Expr.KeepsCallees catalog kept name) (statement.exports catalog name) (statement'.exports catalog name) := by
  cases wrapped with
  | same => exact .refl (Statement.exports_succeeds name shaped)
  | exported inside =>
    cases shaped with
    | node _ values _ _ _ _ =>
      simp only [Statement.exports]
      split
      · exact Expr.hands_wrapped told name inside (values _ List.mem_cons_self)
      · exact .refl (.ok _)

theorem Statement.anyExports_wrapped (told : catalog.TellsParentheses) (name : String)
    {statements statements' : List (Statement κ)}
    (wrapped : List.Forall₂ (Statement.Wrapped catalog kept) statements statements')
    (shaped : ∀ statement ∈ statements, statement.Shaped catalog) :
    Fades (Expr.KeepsCallees catalog kept name) (Statement.anyExports catalog name statements)
      (Statement.anyExports catalog name statements') := by
  induction wrapped with
  | nil => exact .refl (.ok _)
  | cons here _ ih =>
    rw [Statement.anyExports, Statement.anyExports]
    apply Fades.orElse
    · exact Statement.exports_wrapped told name here (shaped _ List.mem_cons_self)
    · exact ih fun statement member => shaped statement (List.mem_cons_of_mem _ member)

end Searching

/-- Parentheses never add an exported name. They hide none either, as long as they leave bare the calls that hand out
the name and are called in turn. -/
theorem parentheses_hide_only_callees (told : catalog.TellsParentheses) {file : SourceFile κ}
    (shaped : file.Shaped catalog) {kept : Expr κ → Prop} {statements : List (Statement κ)}
    (wrapped : List.Forall₂ (Statement.Wrapped catalog kept) file.statements statements) (name : String) :
    ∃ before after, file.exports catalog name = .ok before ∧
      (file.withStatements statements).exports catalog name = .ok after ∧ (after = true → before = true) ∧
      ((∀ callee, catalog.isCall callee.kind → callee.hands catalog name = .ok true → kept callee) →
        after = before) := by
  rw [SourceFile.exports, SourceFile.exports]
  by_cases empty : name = ""
  · rw [if_pos empty, if_pos empty]
    exact ⟨false, false, rfl, rfl, id, fun _ => rfl⟩
  · rw [if_neg empty, if_neg empty]
    exact Statement.anyExports_wrapped told name wrapped shaped

def nameOf (text : String) : Expr Kind := ⟨.node "identifier", text, .plain⟩

def callOf (callee argument : Expr Kind) : Expr Kind := ⟨.node "call_expression", "", .call (some callee) [argument]⟩

def inParentheses (value : Expr Kind) : Expr Kind :=
  ⟨.node "parenthesized_expression", "", .parenthesized (some value)⟩

def exportOf (value : Expr Kind) : Statement Kind := ⟨.node "export_statement", [], [], .exportValue (some value)⟩

theorem nameOf_shaped (text : String) : (nameOf text).Shaped tsxCatalog := Conversion.plain_shaped _ _ trivial

theorem callOf_shaped {callee argument : Expr Kind} (called : callee.Shaped tsxCatalog)
    (given : argument.Shaped tsxCatalog) : (callOf callee argument).Shaped tsxCatalog := by
  refine .node (Conversion.announced_of_exprSort ⟨_, _, rfl⟩) ?_
  intro part inside
  simp only [callOf, ExprForm.parts, Option.toList_some, List.mem_append, List.mem_singleton] at inside
  rcases inside with rfl | rfl
  · exact called
  · exact given

theorem exportOf_shaped {value : Expr Kind} (shaped : value.Shaped tsxCatalog) :
    (exportOf value).Shaped tsxCatalog := by
  refine .node (Conversion.announced_of_sorts trivial trivial) ?_ nofun nofun nofun nofun
  intro exported present
  cases List.mem_singleton.mp present
  exact shaped

theorem tsxCatalog_tellsParentheses : tsxCatalog.TellsParentheses := by
  intro kind parentheses
  obtain ⟨role, member, same⟩ := Catalog.eq_of_plays parentheses
  cases List.mem_singleton.mp member
  cases same
  exact ⟨rfl, rfl⟩

/-- `export default connect(mapState)(withRouter(Foo))` -/
def connectedFile : SourceFile Kind :=
  ⟨.node "program",
    [exportOf
      (callOf (callOf (nameOf "connect") (nameOf "mapState")) (callOf (nameOf "withRouter") (nameOf "Foo")))], ""⟩

def connectedInParentheses : List (Statement Kind) :=
  [exportOf (inParentheses (callOf (inParentheses (callOf (nameOf "connect") (nameOf "mapState")))
    (callOf (inParentheses (nameOf "withRouter")) (inParentheses (nameOf "Foo")))))]

theorem connected_export_kept :
    tsxCatalog.TellsParentheses ∧ connectedFile.Shaped tsxCatalog ∧
      List.Forall₂ (Statement.Wrapped tsxCatalog fun callee => callee.hands tsxCatalog "Foo" = .ok true)
        connectedFile.statements connectedInParentheses ∧
      (connectedFile.withStatements connectedInParentheses).exports tsxCatalog "Foo" = .ok true := by
  have shaped : connectedFile.Shaped tsxCatalog := by
    intro statement present
    cases List.mem_singleton.mp present
    exact exportOf_shaped (callOf_shaped (callOf_shaped (nameOf_shaped _) (nameOf_shaped _))
      (callOf_shaped (nameOf_shaped _) (nameOf_shaped _)))
  have wrapped : List.Forall₂ (Statement.Wrapped tsxCatalog fun callee => callee.hands tsxCatalog "Foo" = .ok true)
      connectedFile.statements connectedInParentheses := by
    refine .cons (.exported (.around rfl (.call (.some (.around rfl (.same _)) ?_) (.cons ?_ .nil)))) .nil
    · intro hands
      cases hands
    · exact .call (.some (.around rfl (.same _)) nofun) (.cons (.around rfl (.same _)) .nil)
  obtain ⟨before, after, computed, left, -, same⟩ :=
    parentheses_hide_only_callees tsxCatalog_tellsParentheses shaped wrapped "Foo"
  have exported : connectedFile.exports tsxCatalog "Foo" = .ok true := rfl
  refine ⟨tsxCatalog_tellsParentheses, shaped, wrapped, ?_⟩
  rw [left, same fun _ _ hands => hands]
  exact computed.symm.trans exported

/-- `export default withRouter(Foo)(options)` -/
def routedFile : SourceFile Kind :=
  ⟨.node "program", [exportOf (callOf (callOf (nameOf "withRouter") (nameOf "Foo")) (nameOf "options"))], ""⟩

def routedInParentheses : List (Statement Kind) :=
  [exportOf (callOf (inParentheses (callOf (nameOf "withRouter") (nameOf "Foo"))) (nameOf "options"))]

theorem routed_export_hidden :
    tsxCatalog.TellsParentheses ∧ routedFile.Shaped tsxCatalog ∧
      List.Forall₂ (Statement.Wrapped tsxCatalog fun _ => False) routedFile.statements routedInParentheses ∧
      routedFile.exports tsxCatalog "Foo" = .ok true ∧
      (routedFile.withStatements routedInParentheses).exports tsxCatalog "Foo" = .ok false := by
  have shaped : routedFile.Shaped tsxCatalog := by
    intro statement present
    cases List.mem_singleton.mp present
    exact exportOf_shaped (callOf_shaped (callOf_shaped (nameOf_shaped _) (nameOf_shaped _)) (nameOf_shaped _))
  refine ⟨tsxCatalog_tellsParentheses, shaped, ?_, rfl, rfl⟩
  exact .cons (.exported (.call (.some (.around rfl (.same _)) False.elim) (.cons (.same _) .nil))) .nil

end ComponentDocs
