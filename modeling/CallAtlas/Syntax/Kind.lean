/-!
# Kinds of syntax nodes and the roles of their children

A syntax tree of a script is built from nodes.  `Kind` says what a node is: one of the language's
constructs, a single token with its text, a comment, or a stretch that could not be read.  `Field`
is the role a child plays in its parent, for the roles that have a name.

The kinds cover the scripting language together with its typed dialect and its markup extension.
Types are kept coarse (`typeExpression`), because nothing that is computed from a tree looks inside
a type.
-/

namespace CallAtlas.Syntax

inductive Kind where
  /-- A keyword, an operator or a bracket, with its spelling. -/
  | token (text : String)
  /-- A stretch of the input that fits no construct. -/
  | error
  | program
  | hashBangLine
  | comment
  -- modules
  | importStatement
  | importClause
  | namespaceImport
  | namedImports
  | importSpecifier
  | importAttribute
  | importRequireClause
  | importAlias
  | exportStatement
  | exportClause
  | exportSpecifier
  | namespaceExport
  -- declarations
  | functionDeclaration
  | generatorFunctionDeclaration
  | functionSignature
  | classDeclaration
  | abstractClassDeclaration
  | lexicalDeclaration
  | variableDeclaration
  | variableDeclarator
  | interfaceDeclaration
  | typeAliasDeclaration
  | enumDeclaration
  | enumBody
  | enumAssignment
  | moduleDeclaration
  | internalModule
  | ambientDeclaration
  -- class members
  | classBody
  | classHeritage
  | decorator
  | methodDefinition
  | methodSignature
  | fieldDefinition
  | staticBlock
  | indexSignature
  -- parameters and patterns
  | formalParameters
  | requiredParameter
  | optionalParameter
  | assignmentPattern
  | restPattern
  | objectPattern
  | arrayPattern
  | pairPattern
  -- statements
  | statementBlock
  | emptyStatement
  | expressionStatement
  | ifStatement
  | elseClause
  | switchStatement
  | switchBody
  | switchCase
  | switchDefault
  | forStatement
  | forInStatement
  | whileStatement
  | doStatement
  | tryStatement
  | catchClause
  | finallyClause
  | withStatement
  | breakStatement
  | continueStatement
  | returnStatement
  | throwStatement
  | debuggerStatement
  | labeledStatement
  -- expressions
  | identifier
  | propertyIdentifier
  | privatePropertyIdentifier
  | shorthandPropertyIdentifier
  | statementIdentifier
  | computedPropertyName
  | thisExpression
  | superExpression
  | importExpression
  | literal
  | number
  | string
  | regex
  | templateString
  | templateSubstitution
  | object
  | pair
  | spreadElement
  | array
  | functionExpression
  | generatorFunction
  | arrowFunction
  | classExpression
  | parenthesizedExpression
  | memberExpression
  | subscriptExpression
  | callExpression
  | newExpression
  | arguments
  | optionalChain
  | metaProperty
  | unaryExpression
  | updateExpression
  | binaryExpression
  | ternaryExpression
  | assignmentExpression
  | augmentedAssignmentExpression
  | awaitExpression
  | yieldExpression
  | sequenceExpression
  -- expressions of the typed dialect
  | asExpression
  | satisfiesExpression
  | nonNullExpression
  | typeAssertion
  | instantiationExpression
  -- types
  | typeAscription
  | typeParameters
  | typeArguments
  | typeExpression
  -- markup
  | jsxElement
  | jsxOpeningElement
  | jsxClosingElement
  | jsxSelfClosingElement
  | jsxAttribute
  | jsxExpression
  | jsxText
  deriving DecidableEq, Repr

namespace Kind

def isMarkup : Kind → Bool
  | jsxElement | jsxOpeningElement | jsxClosingElement | jsxSelfClosingElement
  | jsxAttribute | jsxExpression | jsxText => true
  | _ => false

/-- The name under which a declaring construct is reported.  Other kinds are never reported. -/
def label : Kind → String
  | functionDeclaration => "function_declaration"
  | generatorFunctionDeclaration => "generator_function_declaration"
  | functionExpression => "function_expression"
  | classDeclaration => "class_declaration"
  | abstractClassDeclaration => "abstract_class_declaration"
  | classExpression => "class"
  | methodDefinition => "method_definition"
  | lexicalDeclaration => "lexical_declaration"
  | variableDeclaration => "variable_declaration"
  | token text => text
  | _ => "node"

end Kind

inductive Field where
  | name
  | alias
  | source
  | declaration
  | value
  | parameters
  | parameter
  | body
  | decorator
  | callee
  | arguments
  | object
  | property
  | condition
  | consequence
  | alternative
  | left
  | operator
  | right
  deriving DecidableEq, Repr

end CallAtlas.Syntax
