import StyleSieve.Script.Grammar.Expression

/-!
# Functions, classes and patterns

What introduces names and scopes: functions with their parameters, classes with their members,
and the patterns that take values apart.
-/

namespace StyleSieve.Script.Grammar

open Form Phrase Terminal

/-- A pattern that may have a default. -/
def parameter : Form := oneOf [pattern, assignmentPattern]

/-! ## Functions -/

def functionRules : List (Phrase × Form) := [
  (functionExpression, ranked .literal (all [
    optional "async", "function", optional identifier, formalParameters, block])),
  (functionDeclaration, rankedRight .declaration (all [
    optional "async", "function", identifier, formalParameters, block, optional statementEnd])),
  (generatorExpression, ranked .literal (all [
    optional "async", "function", "*", optional identifier, formalParameters, block])),
  (generatorDeclaration, rankedRight .declaration (all [
    optional "async", "function", "*", identifier, formalParameters, block,
    optional statementEnd])),
  (arrowFunction, all [
    optional "async", oneOf [named contextualWord, identifier, formalParameters], "=>",
    oneOf [expression, block]]),
  (formalParameters, parens [optional (all [listed parameter, optional ","])])]

/-! ## Classes -/

def classRules : List (Phrase × Form) := [
  (classExpression, ranked .literal (all [
    repeated decorator, "class", optional identifier, optional classHeritage, classBody])),
  (classDeclaration, ranked .declaration (all [
    repeated decorator, "class", identifier, optional classHeritage, classBody,
    optional statementEnd])),
  (classHeritage, all ["extends", expression]),
  (classBody, braces [repeated (oneOf [
    all [methodDefinition, optional ";"], all [fieldDefinition, semicolon], staticBlock, ";"])]),
  (fieldDefinition, all [
    repeated decorator, optional "static", propertyName, optional initializer]),
  (staticBlock, all ["static", optional statementEnd, block]),
  (methodDefinition, all [
    repeated decorator, optional (oneOf ["static", staticGet]), optional "async",
    optional (oneOf ["get", "set", "*"]), propertyName, formalParameters, block]),
  (decorator, all ["@", oneOf [identifier, decoratorMember, decoratorCall]]),
  (decoratorMember, ranked .member (all [
    oneOf [identifier, decoratorMember], ".", named identifier])),
  (decoratorCall, ranked .call (all [oneOf [identifier, decoratorMember], arguments]))]

/-! ## Patterns -/

def patternRules : List (Phrase × Form) := [
  (pattern, weighted (-1) (oneOf [assignable, restPattern])),
  (restPattern, rightward (all ["...", assignable])),
  (assignmentPattern, all [pattern, "=", expression]),
  (destructuringPattern, oneOf [objectPattern, arrayPattern]),
  (objectPattern, ranked .object (braces [sparse [
    pairPattern, restPattern, objectAssignmentPattern,
    named (oneOf [identifier, contextualWord])]])),
  (objectAssignmentPattern, all [
    oneOf [named (oneOf [contextualWord, identifier]), destructuringPattern], "=", expression]),
  (pairPattern, all [propertyName, ":", parameter]),
  (arrayPattern, brackets [sparse [parameter]])]

end StyleSieve.Script.Grammar
