import StyleSieve.Script.Grammar.Statement

/-!
# Expressions

Operators, calls, assignments, and the literals of objects, arrays, strings, templates and
regular expressions.
-/

namespace StyleSieve.Script.Grammar

open Form Phrase Terminal

/-- Arguments, elements and properties: any number with commas between, where some may be
missing. -/
def sparse (items : List Form) : Form := listed (optional (oneOf items))

/-- An operator between two expressions, which groups to the left. -/
def infixLeft (rank : Rank) (operator : String) : Form :=
  rankedLeft rank (all [expression, operator, expression])

/-! ## Operators -/

def operatorRules : List (Phrase × Form) := [
  (expression, oneOf [primary, markupElement, markupSelfClosing, assignmentExpression,
    augmentedAssignment, awaitExpression, unaryExpression, binaryExpression,
    conditionalExpression, updateExpression, newExpression, yieldExpression, arrowFunction]),
  (primary, oneOf [subscriptExpression, memberExpression, parenthesized, undefinedWord,
    identifier, named contextualWord, thisWord, superWord, number, string, template, regex,
    trueWord, falseWord, nullWord, object, array, functionExpression, generatorExpression,
    classExpression, metaProperty, callExpression]),
  (parenthesized, parens [expressions]),
  (sequenceExpression, rightward (listed expression)),
  (yieldExpression, rightward (all ["yield", oneOf [all ["*", expression], optional expression]])),
  (awaitExpression, ranked .unary (all ["await", expression])),
  (unaryExpression, rankedLeft .unary (all [
    oneOf ["!", "~", "-", "+", "typeof", "void", "delete"], expression])),
  (updateExpression, leftward (oneOf [
    all [expression, oneOf ["++", "--"]],
    all [oneOf ["++", "--"], expression]])),
  (binaryExpression, oneOf [
    infixLeft .conjunction "&&",
    infixLeft .disjunction "||",
    infixLeft .shift ">>",
    infixLeft .shift ">>>",
    infixLeft .shift "<<",
    infixLeft .bitAnd "&",
    infixLeft .bitXor "^",
    infixLeft .bitOr "|",
    infixLeft .sum "+",
    infixLeft .sum "-",
    infixLeft .product "*",
    infixLeft .product "/",
    infixLeft .product "%",
    rankedRight .power (all [expression, "**", expression]),
    infixLeft .relation "<",
    infixLeft .relation "<=",
    infixLeft .equality "==",
    infixLeft .equality "===",
    infixLeft .equality "!=",
    infixLeft .equality "!==",
    infixLeft .relation ">=",
    infixLeft .relation ">",
    infixLeft .conditional "??",
    infixLeft .relation "instanceof",
    rankedLeft .relation (all [oneOf [expression, privateName], "in", expression])]),
  (conditionalExpression, rankedRight .conditional (all [
    expression, questionMark, expression, ":", expression])),
  (assignmentExpression, rankedRight .assignment (all [
    oneOf [parenthesized, assignable], "=", expression])),
  (augmentedAssignment, rankedRight .assignment (all [
    augmentedTarget,
    oneOf ["+=", "-=", "*=", "/=", "%=", "^=", "&=", "|=", ">>=", ">>>=", "<<=", "**=", "&&=",
      "||=", "??="],
    expression])),
  (augmentedTarget, oneOf [memberExpression, subscriptExpression, named contextualWord,
    identifier, parenthesized])]

/-! ## Calls and members -/

def accessRules : List (Phrase × Form) := [
  (callExpression, oneOf [
    ranked .call (all [oneOf [expression, importWord], arguments]),
    ranked .templateCall (all [oneOf [primary, newExpression], template]),
    ranked .member (all [primary, optionalChain, arguments])]),
  (newExpression, rankedRight .new (all [
    "new", oneOf [primary, newExpression], optional (weighted 1 arguments)])),
  (memberExpression, ranked .member (all [
    oneOf [expression, primary, importWord], oneOf [".", optionalChain],
    oneOf [privateName, memberName]])),
  (memberName, named identifier),
  (subscriptExpression, rankedRight .member (all [
    oneOf [expression, primary], optional optionalChain, "[", expressions, "]"])),
  (optionalChain, "?."),
  (arguments, parens [sparse [expression, spreadElement]]),
  (spreadElement, all ["...", expression]),
  (metaProperty, oneOf [all ["new", ".", "target"], all ["import", ".", "meta"]])]

/-! ## Literals -/

def literalRules : List (Phrase × Form) := [
  (object, ranked .object (braces [sparse [
    pair, spreadElement, methodDefinition, named (oneOf [identifier, contextualWord])]])),
  (pair, all [propertyName, ":", expression]),
  (propertyName, oneOf [
    named (oneOf [identifier, contextualWord]), privateName, string, number, computedName]),
  (computedName, brackets [expression]),
  (array, brackets [sparse [expression, spreadElement]]),
  (string, oneOf [
    within "\"" "\"" [repeated (oneOf [doubleQuoted, escape])],
    within "'" "'" [repeated (oneOf [singleQuoted, escape])]]),
  (template, within "`" "`" [repeated (oneOf [templateText, escape, substitution])]),
  (substitution, within "$\x7b" "\x7d" [expressions]),
  (regex, all ["/", regexBody, regexEnd, optional regexFlags]),
  (thisWord, "this"),
  (superWord, "super"),
  (trueWord, "true"),
  (falseWord, "false"),
  (nullWord, "null"),
  (undefinedWord, "undefined")]

end StyleSieve.Script.Grammar
