import ComponentDocs.Tree.Basic

/-! The roles that node kinds play for the extractor, and catalogs that assign kinds to them. -/

namespace ComponentDocs

inductive Role where
  | sourceFile
  | classDeclaration
  | abstractClassDeclaration
  | classExpression
  | functionDeclaration
  | generatorDeclaration
  | interfaceDeclaration
  | typeAlias
  | importStatement
  | exportStatement
  | returnStatement
  | expressionStatement
  | block
  | comment
  | heritage
  | extendsClause
  | implementsClause
  | extendsTypeClause
  | importClause
  | methodDefinition
  | fieldDefinition
  | propertySignature
  | methodSignature
  | requiredParameter
  | optionalParameter
  | identifier
  | propertyIdentifier
  | shorthandProperty
  | propertyAccess
  | parenthesized
  | call
  | objectLiteral
  | propertyAssignment
  | arrowFunction
  | functionExpression
  | stringLiteral
  | numericLiteral
  | trueLiteral
  | falseLiteral
  | nullLiteral
  | undefinedLiteral
  | jsxElement
  | jsxSelfClosing
  | jsxFragment
  | typeReference
  | genericType
  | qualifiedType
  | unionType
  | functionType
  | literalType
  | objectType
  | anyKeyword
  | numberKeyword
  | booleanKeyword
  | stringKeyword
  | voidKeyword
  | neverKeyword
  | objectKeyword
  | exportKeyword
  | defaultKeyword
  | staticKeyword
deriving DecidableEq, Repr

/-- The kinds of one grammar by role. A role that the grammar does not know has no kind, and two roles may share one. -/
abbrev Catalog (κ : Type) := Role → Option κ

def Kind.node (name : String) : Kind := ⟨name, true⟩

def Kind.keyword (name : String) : Kind := ⟨name, false⟩

def tsxCatalog : Catalog Kind
  | .sourceFile => some (.node "program")
  | .classDeclaration => some (.node "class_declaration")
  | .abstractClassDeclaration => some (.node "abstract_class_declaration")
  | .classExpression => some (.node "class")
  | .functionDeclaration => some (.node "function_declaration")
  | .generatorDeclaration => some (.node "generator_function_declaration")
  | .interfaceDeclaration => some (.node "interface_declaration")
  | .typeAlias => some (.node "type_alias_declaration")
  | .importStatement => some (.node "import_statement")
  | .exportStatement => some (.node "export_statement")
  | .returnStatement => some (.node "return_statement")
  | .expressionStatement => some (.node "expression_statement")
  | .block => some (.node "statement_block")
  | .comment => some (.node "comment")
  | .heritage => some (.node "class_heritage")
  | .extendsClause => some (.node "extends_clause")
  | .implementsClause => some (.node "implements_clause")
  | .extendsTypeClause => some (.node "extends_type_clause")
  | .importClause => some (.node "import_clause")
  | .methodDefinition => some (.node "method_definition")
  | .fieldDefinition => some (.node "public_field_definition")
  | .propertySignature => some (.node "property_signature")
  | .methodSignature => some (.node "method_signature")
  | .requiredParameter => some (.node "required_parameter")
  | .optionalParameter => some (.node "optional_parameter")
  | .identifier => some (.node "identifier")
  | .propertyIdentifier => some (.node "property_identifier")
  | .shorthandProperty => some (.node "shorthand_property_identifier")
  | .propertyAccess => some (.node "member_expression")
  | .parenthesized => some (.node "parenthesized_expression")
  | .call => some (.node "call_expression")
  | .objectLiteral => some (.node "object")
  | .propertyAssignment => some (.node "pair")
  | .arrowFunction => some (.node "arrow_function")
  | .functionExpression => some (.node "function_expression")
  | .stringLiteral => some (.node "string")
  | .numericLiteral => some (.node "number")
  | .trueLiteral => some (.node "true")
  | .falseLiteral => some (.node "false")
  | .nullLiteral => some (.node "null")
  | .undefinedLiteral => some (.node "undefined")
  | .jsxElement => some (.node "jsx_element")
  | .jsxSelfClosing => some (.node "jsx_self_closing_element")
  | .jsxFragment => none
  | .typeReference => some (.node "type_identifier")
  | .genericType => some (.node "generic_type")
  | .qualifiedType => some (.node "nested_type_identifier")
  | .unionType => some (.node "union_type")
  | .functionType => some (.node "function_type")
  | .literalType => some (.node "literal_type")
  | .objectType => some (.node "object_type")
  | .anyKeyword => some (.keyword "any")
  | .numberKeyword => some (.keyword "number")
  | .booleanKeyword => some (.keyword "boolean")
  | .stringKeyword => some (.keyword "string")
  | .voidKeyword => some (.keyword "void")
  | .neverKeyword => some (.keyword "never")
  | .objectKeyword => some (.keyword "object")
  | .exportKeyword => some (.keyword "export")
  | .defaultKeyword => some (.keyword "default")
  | .staticKeyword => some (.keyword "static")

end ComponentDocs
