import ScriptWarden.Grammar.Basic

/-!
# The grammar of guest scripts

Python as guest scripts write it: the statements and expressions of Python 3, and of Python 2 the
`print` and `exec` statements, `<>` and `raise a, b`. Indentation, line ends and strings are
tokens of the layout scanner; everything else is a literal or a lexeme.
-/

namespace ScriptWarden.Python

open ScriptWarden.Grammar
open ScriptWarden.Grammar.Rule

-- ---------------------------------------------------------------------------
-- Precedence levels
-- ---------------------------------------------------------------------------

/-- How tightly the constructs of an expression bind. -/
inductive Binding where
  | lambda | typedParameter | conditional | parenthesized | disjunction | conjunction | negation
  | comparison | bitOr | bitAnd | bitXor | shift | sum | product | sign | power | call

/-- The level of a construct: a higher one binds more tightly. -/
def Binding.level : Binding → Int
  | .lambda => -2
  | .typedParameter => -1
  | .conditional => -1
  | .parenthesized => 1
  | .disjunction => 10
  | .conjunction => 11
  | .negation => 12
  | .comparison => 13
  | .bitOr => 14
  | .bitAnd => 15
  | .bitXor => 16
  | .shift => 17
  | .sum => 18
  | .product => 19
  | .sign => 20
  | .power => 21
  | .call => 22

/-- A binary operator, its grouping and its level. -/
def binaryOperators : List (String × Assoc × Binding) :=
  [("+", .left, .sum), ("-", .left, .sum), ("*", .left, .product), ("@", .left, .product),
   ("/", .left, .product), ("%", .left, .product), ("//", .left, .product),
   ("**", .right, .power), ("|", .left, .bitOr), ("&", .left, .bitAnd), ("^", .left, .bitXor),
   ("<<", .left, .shift), (">>", .left, .shift)]

/-- The operators of augmented assignment. -/
def augmentedOperators : List String :=
  ["+=", "-=", "*=", "/=", "@=", "//=", "%=", "**=", ">>=", "<<=", "&=", "^=", "|="]

-- ---------------------------------------------------------------------------
-- Statements
-- ---------------------------------------------------------------------------

private def expression : Rule := .ref "expression"

private def suite : Rule := .ref "_suite"

private def identifier : Rule := .ref "identifier"

/-- A comma that may close a list. -/
private def trailingComma : Rule := .opt (.token ",")

/-- One or more of a rule with commas between them and perhaps one at the end. -/
private def commaList (r : Rule) : Rule := .seq [.commas1 r, trailingComma]

private def simpleStatements : List (String × Rule) :=
  [("module", .many (.ref "_statement")),
   ("_statement", .oneOf [.ref "_simple_statements", .ref "_compound_statement"]),
   ("_simple_statements", .seq
      [.sepBy1 ";" (.ref "_simple_statement"), .opt (.token ";"), .ref "_newline"]),
   ("_simple_statement", .oneOf
      [.ref "future_import_statement", .ref "import_statement", .ref "import_from_statement",
       .ref "print_statement", .ref "assert_statement", .ref "expression_statement",
       .ref "return_statement", .ref "delete_statement", .ref "raise_statement",
       .ref "pass_statement", .ref "break_statement", .ref "continue_statement",
       .ref "global_statement", .ref "nonlocal_statement", .ref "exec_statement",
       .ref "type_alias_statement"]),
   ("import_statement", .seq [.token "import", .ref "_import_list"]),
   ("import_prefix", .many1 (.token ".")),
   ("relative_import", .seq [.ref "import_prefix", .opt (.ref "dotted_name")]),
   ("future_import_statement", .seq
      [.token "from", .token "__future__", .token "import",
       .oneOf [.ref "_import_list", .seq [.token "(", .ref "_import_list", .token ")"]]]),
   ("import_from_statement", .seq
      [.token "from",
       .field "module_name" (.oneOf [.ref "relative_import", .ref "dotted_name"]),
       .token "import",
       .oneOf [.ref "wildcard_import", .ref "_import_list",
         .seq [.token "(", .ref "_import_list", .token ")"]]]),
   ("_import_list", commaList
      (.field "name" (.oneOf [.ref "dotted_name", .ref "aliased_import"]))),
   ("aliased_import", .seq
      [.field "name" (.ref "dotted_name"), .token "as", .field "alias" identifier]),
   ("wildcard_import", .token "*"),
   ("print_statement", .oneOf
      [.level 1 (.seq
         [.token "print", .ref "chevron",
          .many (.seq [.token ",", .field "argument" expression]), trailingComma]),
       .level (-3) (.dynamic (-1) (.seq
         [.token "print", .commas1 (.field "argument" expression), trailingComma]))]),
   ("chevron", .seq [.token ">>", expression]),
   ("assert_statement", .seq [.token "assert", .commas1 expression]),
   ("expression_statement", .oneOf
      [expression, commaList expression, .ref "assignment", .ref "augmented_assignment",
       .ref "yield"]),
   ("named_expression", .seq
      [.field "name" (.ref "_named_expression_lhs"), .token ":=", .field "value" expression]),
   ("_named_expression_lhs", .oneOf [identifier, .ref "keyword_identifier"]),
   ("return_statement", .seq [.token "return", .opt (.ref "_expressions")]),
   ("delete_statement", .seq [.token "del", .ref "_expressions"]),
   ("_expressions", .oneOf [expression, .ref "expression_list"]),
   ("raise_statement", .seq
      [.token "raise", .opt (.ref "_expressions"),
       .opt (.seq [.token "from", .field "cause" expression])]),
   ("pass_statement", .leftAssoc 0 (.token "pass")),
   ("break_statement", .leftAssoc 0 (.token "break")),
   ("continue_statement", .leftAssoc 0 (.token "continue"))]

private def compoundStatements : List (String × Rule) :=
  [("_compound_statement", .oneOf
      [.ref "if_statement", .ref "for_statement", .ref "while_statement", .ref "try_statement",
       .ref "with_statement", .ref "function_definition", .ref "class_definition",
       .ref "decorated_definition", .ref "match_statement"]),
   ("if_statement", .seq
      [.token "if", .field "condition" expression, .token ":", .field "consequence" suite,
       .many (.field "alternative" (.ref "elif_clause")),
       .opt (.field "alternative" (.ref "else_clause"))]),
   ("elif_clause", .seq
      [.token "elif", .field "condition" expression, .token ":", .field "consequence" suite]),
   ("else_clause", .seq [.token "else", .token ":", .field "body" suite]),
   ("match_statement", .seq
      [.token "match", .commas1 (.field "subject" expression), trailingComma, .token ":",
       .field "body" (.shownAs "block" (.ref "_match_block"))]),
   ("_match_block", .oneOf
      [.seq [.ref "_indent", .many (.field "alternative" (.ref "case_clause")), .ref "_dedent"],
       .ref "_newline"]),
   ("case_clause", .seq
      [.token "case", .commas1 (.ref "case_pattern"), trailingComma,
       .opt (.field "guard" (.ref "if_clause")), .token ":", .field "consequence" suite]),
   ("for_statement", .seq
      [.opt (.token "async"), .token "for", .field "left" (.ref "_left_hand_side"), .token "in",
       .field "right" (.ref "_expressions"), .token ":", .field "body" suite,
       .field "alternative" (.opt (.ref "else_clause"))]),
   ("while_statement", .seq
      [.token "while", .field "condition" expression, .token ":", .field "body" suite,
       .opt (.field "alternative" (.ref "else_clause"))]),
   ("try_statement", .seq
      [.token "try", .token ":", .field "body" suite, .many (.ref "except_clause"),
       .opt (.ref "else_clause"), .opt (.ref "finally_clause")]),
   ("except_clause", .seq
      [.token "except", .opt (.token "*"),
       .opt (.seq [.field "value" expression,
         .opt (.seq [.oneOf [.token "as", .token ","], .field "alias" expression])]),
       .token ":", suite]),
   ("finally_clause", .seq [.token "finally", .token ":", suite]),
   ("with_statement", .seq
      [.opt (.token "async"), .token "with", .ref "with_clause", .token ":",
       .field "body" suite]),
   ("with_clause", .oneOf
      [commaList (.ref "with_item"),
       .seq [.token "(", .commas1 (.ref "with_item"), trailingComma, .token ")"]]),
   ("with_item", .dynamic 1 (.field "value" expression)),
   ("function_definition", .seq
      [.opt (.token "async"), .token "def", .field "name" identifier,
       .field "type_parameters" (.opt (.ref "type_parameter")),
       .field "parameters" (.ref "parameters"),
       .opt (.seq [.token "->", .field "return_type" (.ref "type")]),
       .token ":", .field "body" suite]),
   ("parameters", .seq [.token "(", .opt (.ref "_parameters"), .token ")"]),
   ("lambda_parameters", .ref "_parameters"),
   ("list_splat", .seq [.token "*", expression]),
   ("dictionary_splat", .seq [.token "**", expression]),
   ("global_statement", .seq [.token "global", .commas1 identifier]),
   ("nonlocal_statement", .seq [.token "nonlocal", .commas1 identifier]),
   ("exec_statement", .seq
      [.token "exec", .field "code" (.oneOf [.ref "string", identifier]),
       .opt (.seq [.token "in", .commas1 expression])]),
   ("type_alias_statement", .dynamic 1 (.seq
      [.token "type", .field "left" (.ref "type"), .token "=", .field "right" (.ref "type")])),
   ("class_definition", .seq
      [.token "class", .field "name" identifier,
       .field "type_parameters" (.opt (.ref "type_parameter")),
       .field "superclasses" (.opt (.ref "argument_list")), .token ":", .field "body" suite]),
   ("type_parameter", .seq
      [.token "[", .commas1 (.ref "type"), trailingComma, .token "]"]),
   ("parenthesized_list_splat", .level Binding.parenthesized.level (.seq
      [.token "(",
       .oneOf [.shownAs "parenthesized_expression" (.ref "parenthesized_list_splat"),
         .ref "list_splat"],
       .token ")"])),
   ("argument_list", .seq
      [.token "(",
       .opt (.commas1 (.oneOf
         [expression, .ref "list_splat", .ref "dictionary_splat",
          .shownAs "parenthesized_expression" (.ref "parenthesized_list_splat"),
          .ref "keyword_argument"])),
       trailingComma, .token ")"]),
   ("decorated_definition", .seq
      [.many1 (.ref "decorator"),
       .field "definition" (.oneOf [.ref "class_definition", .ref "function_definition"])]),
   ("decorator", .seq [.token "@", expression, .ref "_newline"]),
   ("_suite", .oneOf
      [.shownAs "block" (.ref "_simple_statements"),
       .seq [.ref "_indent", .ref "block"],
       .shownAs "block" (.ref "_newline")]),
   ("block", .seq [.many (.ref "_statement"), .ref "_dedent"])]

-- ---------------------------------------------------------------------------
-- Patterns
-- ---------------------------------------------------------------------------

private def number : Rule := .oneOf [.ref "integer", .ref "float"]

private def patterns : List (String × Rule) :=
  [("expression_list", .rightAssoc 0 (.seq
      [expression,
       .oneOf [.token ",", .seq [.many1 (.seq [.token ",", expression]), trailingComma]]])),
   ("dotted_name", .level 1 (.sepBy1 "." identifier)),
   ("case_pattern", .level 1 (.oneOf
      [.shownAs "as_pattern" (.ref "_as_pattern"), .ref "keyword_pattern",
       .ref "_simple_pattern"])),
   ("_simple_pattern", .level 1 (.oneOf
      [.ref "class_pattern", .ref "splat_pattern", .ref "union_pattern",
       .shownAs "list_pattern" (.ref "_list_pattern"),
       .shownAs "tuple_pattern" (.ref "_tuple_pattern"),
       .ref "dict_pattern", .ref "string", .ref "concatenated_string", .ref "true",
       .ref "false", .ref "none",
       .seq [.opt (.token "-"), number],
       .ref "complex_pattern", .ref "dotted_name", .token "_"])),
   ("_as_pattern", .seq [.ref "case_pattern", .token "as", identifier]),
   ("union_pattern", .rightAssoc 0 (.seq
      [.ref "_simple_pattern",
       .many1 (.leftAssoc 0 (.seq [.token "|", .ref "_simple_pattern"]))])),
   ("_list_pattern", .seq
      [.token "[", .opt (commaList (.ref "case_pattern")), .token "]"]),
   ("_tuple_pattern", .seq
      [.token "(", .opt (commaList (.ref "case_pattern")), .token ")"]),
   ("dict_pattern", .seq
      [.token "\x7b",
       .opt (commaList (.oneOf [.ref "_key_value_pattern", .ref "splat_pattern"])),
       .token "\x7d"]),
   ("_key_value_pattern", .seq
      [.field "key" (.ref "_simple_pattern"), .token ":",
       .field "value" (.ref "case_pattern")]),
   ("keyword_pattern", .seq [identifier, .token "=", .ref "_simple_pattern"]),
   ("splat_pattern", .level 1 (.seq
      [.oneOf [.token "*", .token "**"], .oneOf [identifier, .token "_"]])),
   ("class_pattern", .seq
      [.ref "dotted_name", .token "(", .opt (commaList (.ref "case_pattern")), .token ")"]),
   ("complex_pattern", .level 1 (.seq
      [.opt (.token "-"), number, .oneOf [.token "+", .token "-"], number])),
   ("_parameters", commaList (.ref "parameter")),
   ("_patterns", commaList (.ref "pattern")),
   ("parameter", .oneOf
      [identifier, .ref "typed_parameter", .ref "default_parameter",
       .ref "typed_default_parameter", .ref "list_splat_pattern", .ref "tuple_pattern",
       .ref "keyword_separator", .ref "positional_separator", .ref "dictionary_splat_pattern"]),
   ("pattern", .oneOf
      [identifier, .ref "keyword_identifier", .ref "subscript", .ref "attribute",
       .ref "list_splat_pattern", .ref "tuple_pattern", .ref "list_pattern"]),
   ("tuple_pattern", .seq [.token "(", .opt (.ref "_patterns"), .token ")"]),
   ("list_pattern", .seq [.token "[", .opt (.ref "_patterns"), .token "]"]),
   ("default_parameter", .seq
      [.field "name" (.oneOf [identifier, .ref "tuple_pattern"]), .token "=",
       .field "value" expression]),
   ("typed_default_parameter", .level Binding.typedParameter.level (.seq
      [.field "name" identifier, .token ":", .field "type" (.ref "type"), .token "=",
       .field "value" expression])),
   ("list_splat_pattern", .seq
      [.token "*", .oneOf
         [identifier, .ref "keyword_identifier", .ref "subscript", .ref "attribute"]]),
   ("dictionary_splat_pattern", .seq
      [.token "**", .oneOf
         [identifier, .ref "keyword_identifier", .ref "subscript", .ref "attribute"]]),
   ("as_pattern", .leftAssoc 0 (.seq
      [expression, .token "as", .field "alias" (.shownAs "as_pattern_target" expression)]))]

-- ---------------------------------------------------------------------------
-- Expressions
-- ---------------------------------------------------------------------------

private def primary : Rule := .ref "primary_expression"

private def comprehension (opening : String) (body : Rule) (closing : String) : Rule :=
  .seq [.token opening, .field "body" body, .ref "_comprehension_clauses", .token closing]

private def lambdaRule (body : Rule) : Rule :=
  .seq [.token "lambda", .field "parameters" (.opt (.ref "lambda_parameters")), .token ":",
    .field "body" body]

private def logical (word : String) (binding : Binding) : Rule :=
  .leftAssoc binding.level (.seq
    [.field "left" expression, .field "operator" (.token word), .field "right" expression])

private def binary : String × Assoc × Binding → Rule := fun (operator, assoc, binding) =>
  .prec (some binding.level) (some assoc) (.seq
    [.field "left" primary, .field "operator" (.token operator), .field "right" primary])

private def expressions : List (String × Rule) :=
  [("_expression_within_for_in_clause", .oneOf
      [expression, .shownAs "lambda" (.ref "lambda_within_for_in_clause")]),
   ("expression", .oneOf
      [.ref "comparison_operator", .ref "not_operator", .ref "boolean_operator", .ref "lambda",
       primary, .ref "conditional_expression", .ref "named_expression", .ref "as_pattern"]),
   ("primary_expression", .oneOf
      [.ref "await", .ref "binary_operator", identifier, .ref "keyword_identifier",
       .ref "string", .ref "concatenated_string", .ref "integer", .ref "float", .ref "true",
       .ref "false", .ref "none", .ref "unary_operator", .ref "attribute", .ref "subscript",
       .ref "call", .ref "list", .ref "list_comprehension", .ref "dictionary",
       .ref "dictionary_comprehension", .ref "set", .ref "set_comprehension", .ref "tuple",
       .ref "parenthesized_expression", .ref "generator_expression", .ref "ellipsis",
       .shownAs "list_splat" (.ref "list_splat_pattern")]),
   ("not_operator", .level Binding.negation.level (.seq
      [.token "not", .field "argument" expression])),
   ("boolean_operator", .oneOf [logical "and" .conjunction, logical "or" .disjunction]),
   ("binary_operator", .oneOf (binaryOperators.map binary)),
   ("unary_operator", .level Binding.sign.level (.seq
      [.field "operator" (.oneOf [.token "+", .token "-", .token "~"]),
       .field "argument" primary])),
   ("_not_in", .seq [.token "not", .token "in"]),
   ("_is_not", .seq [.token "is", .token "not"]),
   ("comparison_operator", .leftAssoc Binding.comparison.level (.seq
      [primary,
       .many1 (.seq
         [.field "operators" (.oneOf
            [.token "<", .token "<=", .token "==", .token "!=", .token ">=", .token ">",
             .token "<>", .token "in", .relabel ⟨"not in", false⟩ (.ref "_not_in"),
             .token "is", .relabel ⟨"is not", false⟩ (.ref "_is_not")]),
          primary])])),
   ("lambda", .level Binding.lambda.level (lambdaRule expression)),
   ("lambda_within_for_in_clause", lambdaRule (.ref "_expression_within_for_in_clause")),
   ("assignment", .seq
      [.field "left" (.ref "_left_hand_side"),
       .oneOf
         [.seq [.token "=", .field "right" (.ref "_right_hand_side")],
          .seq [.token ":", .field "type" (.ref "type")],
          .seq [.token ":", .field "type" (.ref "type"), .token "=",
            .field "right" (.ref "_right_hand_side")]]]),
   ("augmented_assignment", .seq
      [.field "left" (.ref "_left_hand_side"),
       .field "operator" (.oneOf (augmentedOperators.map .token)),
       .field "right" (.ref "_right_hand_side")]),
   ("_left_hand_side", .oneOf [.ref "pattern", .ref "pattern_list"]),
   ("pattern_list", .seq
      [.ref "pattern",
       .oneOf [.token ",",
         .seq [.many1 (.seq [.token ",", .ref "pattern"]), trailingComma]]]),
   ("_right_hand_side", .oneOf
      [expression, .ref "expression_list", .ref "assignment", .ref "augmented_assignment",
       .ref "pattern_list", .ref "yield"]),
   ("yield", .rightAssoc 0 (.seq
      [.token "yield",
       .oneOf [.seq [.token "from", expression], .opt (.ref "_expressions")]])),
   ("attribute", .level Binding.call.level (.seq
      [.field "object" primary, .token ".", .field "attribute" identifier])),
   ("subscript", .level Binding.call.level (.seq
      [.field "value" primary, .token "[",
       .commas1 (.field "subscript" (.oneOf [expression, .ref "slice"])), trailingComma,
       .token "]"])),
   ("slice", .seq
      [.opt expression, .token ":", .opt expression,
       .opt (.seq [.token ":", .opt expression])]),
   ("ellipsis", .token "..."),
   ("call", .level Binding.call.level (.seq
      [.field "function" primary,
       .field "arguments" (.oneOf [.ref "generator_expression", .ref "argument_list"])])),
   ("typed_parameter", .level Binding.typedParameter.level (.seq
      [.oneOf [identifier, .ref "list_splat_pattern", .ref "dictionary_splat_pattern"],
       .token ":", .field "type" (.ref "type")])),
   ("type", .oneOf
      [.level 1 expression, .ref "splat_type", .ref "generic_type", .ref "union_type",
       .ref "constrained_type", .ref "member_type"]),
   ("splat_type", .level 1 (.seq [.oneOf [.token "*", .token "**"], identifier])),
   ("generic_type", .level 1 (.seq
      [.oneOf [identifier, .shownAs "identifier" (.token "type")], .ref "type_parameter"])),
   ("union_type", .leftAssoc 0 (.seq [.ref "type", .token "|", .ref "type"])),
   ("constrained_type", .rightAssoc 0 (.seq [.ref "type", .token ":", .ref "type"])),
   ("member_type", .seq [.ref "type", .token ".", identifier]),
   ("keyword_argument", .seq
      [.field "name" (.oneOf [identifier, .ref "keyword_identifier"]), .token "=",
       .field "value" expression])]

-- ---------------------------------------------------------------------------
-- Collections, strings and words
-- ---------------------------------------------------------------------------

private def literals : List (String × Rule) :=
  [("list", .seq [.token "[", .opt (.ref "_collection_elements"), .token "]"]),
   ("set", .seq [.token "\x7b", .ref "_collection_elements", .token "\x7d"]),
   ("tuple", .seq [.token "(", .opt (.ref "_collection_elements"), .token ")"]),
   ("dictionary", .seq
      [.token "\x7b", .opt (.commas1 (.oneOf [.ref "pair", .ref "dictionary_splat"])),
       trailingComma, .token "\x7d"]),
   ("pair", .seq [.field "key" expression, .token ":", .field "value" expression]),
   ("list_comprehension", comprehension "[" expression "]"),
   ("dictionary_comprehension", comprehension "\x7b" (.ref "pair") "\x7d"),
   ("set_comprehension", comprehension "\x7b" expression "\x7d"),
   ("generator_expression", comprehension "(" expression ")"),
   ("_comprehension_clauses", .seq
      [.ref "for_in_clause", .many (.oneOf [.ref "for_in_clause", .ref "if_clause"])]),
   ("parenthesized_expression", .level Binding.parenthesized.level (.seq
      [.token "(", .oneOf [expression, .ref "yield"], .token ")"])),
   ("_collection_elements", commaList (.oneOf
      [expression, .ref "yield", .ref "list_splat", .ref "parenthesized_list_splat"])),
   ("for_in_clause", .leftAssoc 0 (.seq
      [.opt (.token "async"), .token "for", .field "left" (.ref "_left_hand_side"),
       .token "in",
       .field "right" (.commas1 (.ref "_expression_within_for_in_clause")), trailingComma])),
   ("if_clause", .seq [.token "if", expression]),
   ("conditional_expression", .rightAssoc Binding.conditional.level (.seq
      [expression, .token "if", expression, .token "else", expression])),
   ("concatenated_string", .seq [.ref "string", .many1 (.ref "string")]),
   ("string", .seq
      [.ref "string_start", .many (.oneOf [.ref "interpolation", .ref "string_content"]),
       .ref "string_end"]),
   ("string_content", .rightAssoc 0 (.many1 (.oneOf
      [.ref "escape_interpolation", .ref "escape_sequence", .ref "_not_escape_sequence",
       .ref "_string_content"]))),
   ("interpolation", .seq
      [.token "\x7b", .field "expression" (.ref "_f_expression"), .opt (.token "="),
       .opt (.field "type_conversion" (.ref "type_conversion")),
       .opt (.field "format_specifier" (.ref "format_specifier")), .token "\x7d"]),
   ("_f_expression", .oneOf
      [expression, .ref "expression_list", .ref "pattern_list", .ref "yield"]),
   ("escape_sequence", .lexeme "escape_sequence"),
   ("_not_escape_sequence", .lexeme "backslash"),
   ("format_specifier", .seq
      [.token ":",
       .many (.oneOf [.lexeme "format_text",
         .shownAs "format_expression" (.ref "interpolation")])]),
   ("type_conversion", .lexeme "type_conversion"),
   ("integer", .lexeme "integer"),
   ("float", .lexeme "float"),
   ("identifier", .lexeme "identifier"),
   ("keyword_identifier", .oneOf
      [.level (-3) (.shownAs "identifier" (.oneOf
         [.token "print", .token "exec", .token "async", .token "await"])),
       .shownAs "identifier" (.oneOf [.token "type", .token "match"])]),
   ("true", .token "True"),
   ("false", .token "False"),
   ("none", .token "None"),
   ("await", .level Binding.sign.level (.seq [.token "await", primary])),
   ("comment", .lexeme "comment"),
   ("line_continuation", .lexeme "line_continuation"),
   ("positional_separator", .token "/"),
   ("keyword_separator", .token "*")]

/-- The grammar as it is written. -/
def source : Source :=
  { start := "module"
    word := "identifier"
    rules := simpleStatements ++ compoundStatements ++ patterns ++ expressions ++ literals
    scanned := ["_newline", "_indent", "_dedent", "string_start", "_string_content",
      "escape_interpolation", "string_end"]
    watched := ["]", ")", "\x7d", "except"]
    extras := ["comment", "line_continuation"]
    transparent := ["expression", "primary_expression", "pattern", "parameter"]
    inlined := ["_simple_statement", "_compound_statement", "_suite", "_expressions",
      "_left_hand_side", "keyword_identifier"]
    reserved := ["False", "None", "True", "and", "as", "assert", "async", "await", "break",
      "class", "continue", "def", "del", "elif", "else", "except", "finally", "for", "from",
      "global", "if", "import", "in", "is", "lambda", "nonlocal", "not", "or", "pass", "raise",
      "return", "try", "while", "with", "yield"] }

/-- The grammar of guest scripts. -/
def grammar : Grammar := source.build

end ScriptWarden.Python
