import StyleSieve.Script.Grammar.Expression

/-!
# Markup

Elements with tags, attributes and text, which may stand among the expressions of a script and
hold expressions in turn.
-/

namespace StyleSieve.Script.Grammar

open Form Phrase Terminal

/-- A name in markup. -/
def markupWord : Form := oneOf [named markupName, identifier]

/-- The name of an element. -/
def elementName : Form := oneOf [markupWord, markupNestedName, markupNamespacedName]

/-- An element with its content, or one that has none. -/
def element : Form := oneOf [markupElement, markupSelfClosing]

/-- An attribute, or an expression in place of attributes. -/
def elementAttribute : Form := oneOf [markupAttribute, markupExpression]

def markupRules : List (Phrase × Form) := [
  (markupElement, all [
    markupOpening,
    repeated (oneOf [markupText, characterReference, element, markupExpression]),
    markupClosing]),
  (markupOpening, weighted (-1) (within "<" ">" [
    optional (all [elementName, repeated elementAttribute])])),
  (markupClosing, within "</" ">" [optional elementName]),
  (markupSelfClosing, within "<" "/>" [elementName, repeated elementAttribute]),
  (markupNestedName, ranked .member (all [
    oneOf [identifier, markupNestedName], ".", named identifier])),
  (markupNamespacedName, all [markupWord, ":", markupWord]),
  (markupAttribute, all [
    oneOf [named markupWord, markupNamespacedName],
    optional (all ["=", oneOf [markupString, markupExpression, element]])]),
  (markupExpression, braces [optional (oneOf [expression, sequenceExpression, spreadElement])]),
  (markupString, oneOf [
    within "\"" "\"" [repeated (oneOf [doubleQuotedMarkup, characterReference])],
    within "'" "'" [repeated (oneOf [singleQuotedMarkup, characterReference])]])]

end StyleSieve.Script.Grammar
