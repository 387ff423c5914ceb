/-! # Node kinds

Every node of a document tree has a kind. The kinds of specs documents and of pseudo-kernel
documents share the type expressions, the calls and the literals. -/

namespace DocGrammar

/-- The kind of a node. -/
inductive NodeKind where
  /-- The root of a document tree. -/
  | sourceFile
  /-- The directive line. -/
  | shebang
  /-- The grammar that the directive names. -/
  | grammarName
  /-- A name. -/
  | identifier
  /-- Any type expression, around exactly one alternative. -/
  | typeSpecification
  /-- A built-in type. -/
  | primitiveType
  /-- A type of objects with named properties. -/
  | objectType
  /-- A property of an object type. -/
  | propertyType
  /-- An array of a type. -/
  | arrayType
  /-- The union of two types. -/
  | unionType
  /-- A type applied to arguments. -/
  | genericType
  /-- The section that names the feature. -/
  | featureSection
  /-- The name of the feature. -/
  | featureName
  /-- The intent of the feature. -/
  | intentSection
  /-- A verb, a subject, parameters and a return type. -/
  | intentDeclaration
  /-- The verb of an intent. -/
  | actionVerb
  /-- What an intent acts on. -/
  | subject
  /-- What an intent acts with. -/
  | parameters
  /-- What an intent returns. -/
  | returnType
  /-- The inputs of the feature. -/
  | inputsSection
  /-- A named input and its type. -/
  | inputSpec
  /-- The outputs of the feature. -/
  | outputsSection
  /-- A named output with its type or its errors. -/
  | outputSpec
  /-- The errors of a failure output. -/
  | errorTypes
  /-- Example calls. -/
  | examplesSection
  /-- A call and its expected result. -/
  | exampleSpec
  /-- An argument of an example call. -/
  | argument
  /-- An object written out. -/
  | objectLiteral
  /-- A property of an object in an example. -/
  | propertyAssignment
  /-- The result of an example call. -/
  | expectedResult
  /-- An error as the result of an example call. -/
  | errorResult
  /-- Constraints on inputs and outputs. -/
  | constraintsSection
  /-- One constraint. -/
  | constraintSpec
  /-- A property compared with a value. -/
  | comparison
  /-- The operator of a comparison. -/
  | comparisonOperator
  /-- A property that lies in a range. -/
  | rangeConstraint
  /-- A range between two bounds. -/
  | range
  /-- A property that matches a pattern. -/
  | formatConstraint
  /-- A pattern between slashes. -/
  | pattern
  /-- Invariants of the feature. -/
  | invariantsSection
  /-- Two equivalent statements. -/
  | invariantSpec
  /-- A name followed by property names. -/
  | propertyAccess
  /-- A call. -/
  | functionCall
  /-- A value in a constraint or an object. -/
  | value
  /-- A string. -/
  | stringLiteral
  /-- A number. -/
  | number
  /-- A truth value of a specs document. -/
  | booleanLiteral
  /-- A heading. -/
  | markdownHeader
  /-- A block of text. -/
  | paragraph
  /-- A link item. -/
  | contextLink
  /-- The target of a link. -/
  | linkTarget
  /-- The description of a link. -/
  | linkDescription
  /-- A fenced block of statements. -/
  | pseudoCodeBlock
  /-- A fenced block of other code. -/
  | codeBlock
  /-- The language of a code block. -/
  | languageIdentifier
  /-- A line of a code block. -/
  | codeLine
  /-- A fenced block of formulas. -/
  | mathBlock
  /-- A line of a math block. -/
  | latexLine
  /-- A function definition. -/
  | functionDefinition
  /-- The parameters of a function. -/
  | parameterList
  /-- A parameter and its type. -/
  | parameter
  /-- Statements between braces. -/
  | block
  /-- A binding of a new name. -/
  | letBinding
  /-- A new value for a name. -/
  | assignment
  /-- A conditional. -/
  | ifStatement
  /-- A return from a function. -/
  | returnStatement
  /-- A call of a system verb. -/
  | systemFunctionCall
  /-- An expression as a statement. -/
  | expressionStatement
  /-- The arguments of a call. -/
  | argumentList
  /-- A call of a method. -/
  | methodCall
  /-- A name in a scope. -/
  | scopedIdentifier
  /-- A property of an object literal. -/
  | objectProperty
  /-- An array written out. -/
  | arrayLiteral
  /-- A range between two expressions. -/
  | rangeExpression
  /-- An operator between two expressions. -/
  | binaryExpression
  /-- A value piped into an expression. -/
  | pipeExpression
  /-- An operator before an expression. -/
  | unaryExpression
  /-- A truth value of pseudo code. -/
  | boolean
  deriving DecidableEq, Repr, Inhabited

namespace NodeKind

/-- The name of a kind in rendered trees. -/
def name : NodeKind → String
  | sourceFile => "source_file"
  | shebang => "shebang"
  | grammarName => "grammar_name"
  | identifier => "identifier"
  | typeSpecification => "type_specification"
  | primitiveType => "primitive_type"
  | objectType => "object_type"
  | propertyType => "property_type"
  | arrayType => "array_type"
  | unionType => "union_type"
  | genericType => "generic_type"
  | featureSection => "feature_section"
  | featureName => "feature_name"
  | intentSection => "intent_section"
  | intentDeclaration => "intent_declaration"
  | actionVerb => "action_verb"
  | subject => "subject"
  | parameters => "parameters"
  | returnType => "return_type"
  | inputsSection => "inputs_section"
  | inputSpec => "input_spec"
  | outputsSection => "outputs_section"
  | outputSpec => "output_spec"
  | errorTypes => "error_types"
  | examplesSection => "examples_section"
  | exampleSpec => "example_spec"
  | argument => "argument"
  | objectLiteral => "object_literal"
  | propertyAssignment => "property_assignment"
  | expectedResult => "expected_result"
  | errorResult => "error_result"
  | constraintsSection => "constraints_section"
  | constraintSpec => "constraint_spec"
  | comparison => "comparison"
  | comparisonOperator => "comparison_operator"
  | rangeConstraint => "range_constraint"
  | range => "range"
  | formatConstraint => "format_constraint"
  | pattern => "pattern"
  | invariantsSection => "invariants_section"
  | invariantSpec => "invariant_spec"
  | propertyAccess => "property_access"
  | functionCall => "function_call"
  | value => "value"
  | stringLiteral => "string_literal"
  | number => "number"
  | booleanLiteral => "boolean_literal"
  | markdownHeader => "markdown_header"
  | paragraph => "paragraph"
  | contextLink => "context_link"
  | linkTarget => "link_target"
  | linkDescription => "link_description"
  | pseudoCodeBlock => "pseudo_code_block"
  | codeBlock => "code_block"
  | languageIdentifier => "language_identifier"
  | codeLine => "code_line"
  | mathBlock => "math_block"
  | latexLine => "latex_line"
  | functionDefinition => "function_definition"
  | parameterList => "parameter_list"
  | parameter => "parameter"
  | block => "block"
  | letBinding => "let_binding"
  | assignment => "assignment"
  | ifStatement => "if_statement"
  | returnStatement => "return_statement"
  | systemFunctionCall => "system_function_call"
  | expressionStatement => "expression_statement"
  | argumentList => "argument_list"
  | methodCall => "method_call"
  | scopedIdentifier => "scoped_identifier"
  | objectProperty => "object_property"
  | arrayLiteral => "array_literal"
  | rangeExpression => "range_expression"
  | binaryExpression => "binary_expression"
  | pipeExpression => "pipe_expression"
  | unaryExpression => "unary_expression"
  | boolean => "boolean"

/-- Every node kind, in the order of declaration. -/
def all : List NodeKind :=
  [sourceFile, shebang, grammarName, identifier, typeSpecification, primitiveType, objectType,
    propertyType, arrayType, unionType, genericType, featureSection, featureName, intentSection,
    intentDeclaration, actionVerb, subject, parameters, returnType, inputsSection, inputSpec,
    outputsSection, outputSpec, errorTypes, examplesSection, exampleSpec, argument,
    objectLiteral, propertyAssignment, expectedResult, errorResult, constraintsSection,
    constraintSpec, comparison, comparisonOperator, rangeConstraint, range, formatConstraint,
    pattern, invariantsSection, invariantSpec, propertyAccess, functionCall, value,
    stringLiteral, number, booleanLiteral, markdownHeader, paragraph, contextLink, linkTarget,
    linkDescription, pseudoCodeBlock, codeBlock, languageIdentifier, codeLine, mathBlock,
    latexLine, functionDefinition, parameterList, parameter, block, letBinding, assignment,
    ifStatement, returnStatement, systemFunctionCall, expressionStatement, argumentList,
    methodCall, scopedIdentifier, objectProperty, arrayLiteral, rangeExpression,
    binaryExpression, pipeExpression, unaryExpression, boolean]

/-- The kind of a given name. -/
def ofName? (wanted : String) : Option NodeKind :=
  all.find? fun kind => kind.name == wanted

end NodeKind

end DocGrammar
