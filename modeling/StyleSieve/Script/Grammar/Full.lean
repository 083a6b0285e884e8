import StyleSieve.Script.Grammar.Function
import StyleSieve.Script.Grammar.Markup

/-!
# The grammar of scripts

All rules together, and the orders of precedence among their contenders.
-/

namespace StyleSieve.Script

open Grammar

/-- The grammar of programs: modules with markup, decorators and private names. -/
def scriptGrammar : Grammar where
  start := .program
  rules := moduleRules ++ declarationRules ++ statementRules ++ operatorRules ++ accessRules ++
    literalRules ++ functionRules ++ classRules ++ patternRules ++ markupRules
  freeWords := [.propertyName, .memberName]
  precedence := [
    [.rank .member, .rank .templateCall, .rank .call, .phrase .updateExpression, .rank .unary,
      .rank .power, .rank .product, .rank .sum, .rank .shift, .rank .relation, .rank .equality,
      .rank .bitAnd, .rank .bitXor, .rank .bitOr, .rank .conjunction, .rank .disjunction,
      .rank .conditional, .phrase .sequenceExpression, .phrase .arrowFunction],
    [.rank .assignment, .phrase .primary],
    [.rank .member, .rank .templateCall, .rank .new, .rank .call, .phrase .expression],
    [.rank .declaration, .rank .literal],
    [.phrase .primary, .phrase .block, .rank .object],
    [.phrase .metaProperty, .phrase .importWord],
    [.phrase .importStatement, .phrase .importWord],
    [.phrase .exportStatement, .phrase .primary],
    [.phrase .lexicalDeclaration, .phrase .primary]]

end StyleSieve.Script
