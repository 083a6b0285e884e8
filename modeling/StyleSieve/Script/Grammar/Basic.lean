/-!
# Grammars of scripts

A grammar gives every phrase a form. Forms are built from terminals and phrases by sequence,
choice and repetition, and carry what settles ambiguities: a rank and a side say how tightly a
form binds, and a weight says which of two readings of the same text is meant.
-/

namespace StyleSieve.Script

/-- What a text is divided into. -/
inductive Terminal where
  /-- A keyword or a mark with a fixed spelling. -/
  | word (text : String)
  | identifier
  /-- A name behind a number sign. -/
  | privateName
  /-- A name in markup that holds a hyphen. -/
  | markupName
  | number
  /-- A backslash and what it introduces, in a literal. -/
  | escape
  /-- A run of plain characters between double quotes. -/
  | doubleQuoted
  /-- A run of plain characters between single quotes. -/
  | singleQuoted
  /-- A run of plain characters between double quotes in markup. -/
  | doubleQuotedMarkup
  /-- A run of plain characters between single quotes in markup. -/
  | singleQuotedMarkup
  /-- A character in markup that is named or numbered. -/
  | characterReference
  /-- A run of text between the tags of markup. -/
  | markupText
  /-- A run of plain characters in a template. -/
  | templateText
  /-- What a regular expression consists of between its slashes. -/
  | regexBody
  /-- The slash that ends a regular expression. -/
  | regexEnd
  | regexFlags
  /-- The end of a statement that no semicolon marks. -/
  | statementEnd
  /-- The question mark of a conditional expression. -/
  | questionMark
  /-- The words `static` and `get` at the end of a line. -/
  | staticGet
  /-- A first line that names an interpreter. -/
  | interpreterLine
  | endOfText
  /-- Stands before the names of properties, where reserved words are names as well. It is never
  read. -/
  | propertyPosition
  deriving DecidableEq

/-- How tightly forms bind. -/
inductive Rank where
  | member
  | templateCall
  | call
  | new
  | unary
  | power
  | product
  | sum
  | shift
  | relation
  | equality
  | bitAnd
  | bitXor
  | bitOr
  | conjunction
  | disjunction
  | conditional
  | assignment
  | declaration
  | literal
  | object
  deriving DecidableEq

/-- To which side a chain of forms of one rank is grouped. -/
inductive Side where
  | left
  | right
  deriving DecidableEq

/-- The phrases of scripts. -/
inductive Phrase where
  | program
  | statement
  | exportStatement
  | namespaceExport
  | exportClause
  | exportSpecifier
  | exportedName
  | importStatement
  | importClause
  | fromClause
  | namespaceImport
  | namedImports
  | importSpecifier
  | importAttribute
  | importWord
  | declaration
  | expressionStatement
  | variableDeclaration
  | lexicalDeclaration
  | usingDeclaration
  | variableDeclarator
  | block
  | elseClause
  | ifStatement
  | switchStatement
  | switchBody
  | switchCase
  | switchDefault
  | forStatement
  | forInStatement
  | forHeader
  | whileStatement
  | doStatement
  | tryStatement
  | catchClause
  | finallyClause
  | withStatement
  | breakStatement
  | continueStatement
  | debuggerStatement
  | returnStatement
  | throwStatement
  | emptyStatement
  | labeledStatement
  | expression
  | primary
  | parenthesized
  | yieldExpression
  | awaitExpression
  | unaryExpression
  | binaryExpression
  | conditionalExpression
  | updateExpression
  | sequenceExpression
  | newExpression
  | callExpression
  | memberExpression
  | memberName
  | subscriptExpression
  | optionalChain
  | arguments
  | metaProperty
  | assignmentExpression
  | augmentedAssignment
  | augmentedTarget
  | initializer
  | spreadElement
  | object
  | pair
  | propertyName
  | computedName
  | array
  | arrowFunction
  | functionExpression
  | functionDeclaration
  | generatorExpression
  | generatorDeclaration
  | formalParameters
  | methodDefinition
  | classExpression
  | classDeclaration
  | classHeritage
  | classBody
  | fieldDefinition
  | staticBlock
  | decorator
  | decoratorMember
  | decoratorCall
  | pattern
  | restPattern
  | assignmentPattern
  | objectPattern
  | objectAssignmentPattern
  | pairPattern
  | arrayPattern
  | destructuringPattern
  | markupElement
  | markupOpening
  | markupClosing
  | markupSelfClosing
  | markupNestedName
  | markupNamespacedName
  | markupAttribute
  | markupExpression
  | markupString
  | string
  | template
  | substitution
  | regex
  | thisWord
  | superWord
  | trueWord
  | falseWord
  | nullWord
  | undefinedWord
  deriving DecidableEq

/-- The forms that phrases can have. -/
inductive Form where
  | nothing
  | terminal (t : Terminal)
  | phrase (p : Phrase)
  | seq (first second : Form)
  | either (first second : Form)
  /-- One or more of a form. -/
  | many (item : Form)
  /-- A form that binds with a rank, to a side, or both. -/
  | bound (rank : Option Rank) (side : Option Side) (form : Form)
  /-- A form that adds to the weight of a reading. -/
  | weighted (weight : Int) (form : Form)
  /-- A word that is the name of something, even where it looks like a keyword. -/
  | named (word : Form)
  deriving DecidableEq

namespace Form

instance : Coe Terminal Form := ⟨terminal⟩
instance : Coe Phrase Form := ⟨phrase⟩
instance : Coe String Form := ⟨fun text => terminal (.word text)⟩

/-- Forms one after the other. -/
def all : List Form → Form
  | [] => nothing
  | [f] => f
  | f :: g :: rest => seq f (all (g :: rest))

/-- One of several forms. -/
def oneOf : List Form → Form
  | [] => nothing
  | [f] => f
  | f :: g :: rest => either f (oneOf (g :: rest))

/-- A form or nothing. -/
def optional (f : Form) : Form := either f nothing

/-- Any number of a form, or none. -/
def repeated (f : Form) : Form := optional (many f)

/-- One or more of a form, with commas between. -/
def listed (f : Form) : Form := seq f (repeated (seq "," f))

/-- Forms one after the other, between two marks. -/
def within (opening closing : String) (fs : List Form) : Form :=
  all ((opening : Form) :: fs ++ [(closing : Form)])

def parens (fs : List Form) : Form := within "(" ")" fs
def brackets (fs : List Form) : Form := within "[" "]" fs
def braces (fs : List Form) : Form := within "\x7b" "\x7d" fs

def ranked (rank : Rank) (f : Form) : Form := bound (some rank) none f
def leftward (f : Form) : Form := bound none (some .left) f
def rightward (f : Form) : Form := bound none (some .right) f
def rankedLeft (rank : Rank) (f : Form) : Form := bound (some rank) (some .left) f
def rankedRight (rank : Rank) (f : Form) : Form := bound (some rank) (some .right) f

end Form

/-- What can win or lose where two forms compete: a rank, or all that is said of a phrase. -/
inductive Contender where
  | rank (r : Rank)
  | phrase (p : Phrase)
  deriving DecidableEq

/-- A grammar. -/
structure Grammar where
  /-- What a whole text is. -/
  start : Phrase
  /-- The forms of the phrases. -/
  rules : List (Phrase × Form)
  /-- The phrases that can start with any word, reserved ones included. -/
  freeWords : List Phrase
  /-- Orders of precedence, each from the tightest contender to the loosest. -/
  precedence : List (List Contender)

end StyleSieve.Script
