import StyleSieve.Script.Grammar.Basic

/-!
# Statements

Programs, modules, declarations of variables, and control flow. A statement that does not end in
a block ends in a semicolon or where the layout of the text ends it.
-/

namespace StyleSieve.Script.Grammar

open Form Phrase Terminal

/-- The end of a statement. -/
def semicolon : Form := oneOf [statementEnd, ";"]

/-- One expression, or several with commas between. -/
def expressions : Form := oneOf [expression, sequenceExpression]

/-- Words that are names where they are not keywords. -/
def contextualWord : Form := oneOf ["get", "set", "async", "static", "export", "let"]

/-- What a declaration binds. -/
def boundName : Form := oneOf [identifier, destructuringPattern]

/-- What may stand on the left of an assignment, parenthesised expressions apart. -/
def assignable : Form :=
  oneOf [memberExpression, subscriptExpression, undefinedWord, identifier, named contextualWord,
    destructuringPattern]

/-! ## Programs and modules -/

def moduleRules : List (Phrase × Form) := [
  (program, all [optional interpreterLine, repeated statement]),
  (exportStatement, oneOf [
    all ["export", oneOf [
      all ["*", fromClause],
      all [namespaceExport, fromClause],
      all [exportClause, fromClause],
      exportClause],
      semicolon],
    all [repeated decorator, "export", oneOf [
      declaration,
      all ["default", oneOf [declaration, all [expression, semicolon]]]]]]),
  (namespaceExport, all ["*", "as", exportedName]),
  (exportClause, braces [optional (listed exportSpecifier), optional ","]),
  (exportSpecifier, all [exportedName, optional (all ["as", exportedName])]),
  (exportedName, oneOf [identifier, string, "default"]),
  (importStatement, all ["import",
    oneOf [all [importClause, fromClause], string],
    optional importAttribute, semicolon]),
  (importClause, oneOf [
    namespaceImport,
    namedImports,
    all [identifier, optional (all [",", oneOf [namespaceImport, namedImports]])]]),
  (fromClause, all ["from", string]),
  (namespaceImport, all ["*", "as", identifier]),
  (namedImports, braces [optional (listed importSpecifier), optional ","]),
  (importSpecifier, oneOf [identifier, all [exportedName, "as", identifier]]),
  (importAttribute, all ["with", object]),
  (importWord, "import")]

/-! ## Declarations -/

def declarationRules : List (Phrase × Form) := [
  (declaration, oneOf [functionDeclaration, generatorDeclaration, classDeclaration,
    lexicalDeclaration, variableDeclaration, usingDeclaration]),
  (variableDeclaration, all ["var", listed variableDeclarator, semicolon]),
  (lexicalDeclaration, all [oneOf ["let", "const"], listed variableDeclarator, semicolon]),
  (usingDeclaration, all [oneOf ["using", all ["await", "using"]], listed variableDeclarator,
    semicolon]),
  (variableDeclarator, all [boundName, optional initializer]),
  (initializer, all ["=", expression])]

/-! ## Control flow -/

def statementRules : List (Phrase × Form) := [
  (statement, oneOf [exportStatement, importStatement, debuggerStatement, expressionStatement,
    declaration, block, ifStatement, switchStatement, forStatement, forInStatement,
    whileStatement, doStatement, tryStatement, withStatement, breakStatement, continueStatement,
    returnStatement, throwStatement, emptyStatement, labeledStatement]),
  (expressionStatement, all [expressions, semicolon]),
  (block, rightward (all ["\x7b", repeated statement, "\x7d", optional statementEnd])),
  (ifStatement, rightward (all ["if", parenthesized, statement, optional elseClause])),
  (elseClause, all ["else", statement]),
  (switchStatement, all ["switch", parenthesized, switchBody]),
  (switchBody, braces [repeated (oneOf [switchCase, switchDefault])]),
  (switchCase, all ["case", expressions, ":", repeated statement]),
  (switchDefault, all ["default", ":", repeated statement]),
  (forStatement, all ["for", "(",
    oneOf [lexicalDeclaration, variableDeclaration, all [expressions, ";"], emptyStatement],
    oneOf [all [expressions, ";"], emptyStatement],
    optional expressions, ")", statement]),
  (forInStatement, all ["for", optional "await", forHeader, statement]),
  (forHeader, parens [
    oneOf [
      assignable,
      parenthesized,
      all ["var", boundName, optional initializer],
      all [oneOf ["let", "const"], boundName, optional statementEnd]],
    oneOf ["in", "of"], expressions]),
  (whileStatement, all ["while", parenthesized, statement]),
  (doStatement, rightward (all ["do", statement, "while", parenthesized, optional semicolon])),
  (tryStatement, all ["try", block, optional catchClause, optional finallyClause]),
  (catchClause, all ["catch", optional (parens [boundName]), block]),
  (finallyClause, all ["finally", block]),
  (withStatement, all ["with", parenthesized, statement]),
  (breakStatement, all ["break", optional (named identifier), semicolon]),
  (continueStatement, all ["continue", optional (named identifier), semicolon]),
  (debuggerStatement, all ["debugger", semicolon]),
  (returnStatement, all ["return", optional expressions, semicolon]),
  (throwStatement, all ["throw", expressions, semicolon]),
  (emptyStatement, ";"),
  (labeledStatement, weighted (-1) (all [
    named (oneOf [identifier, contextualWord]), ":", statement]))]

end StyleSieve.Script.Grammar
