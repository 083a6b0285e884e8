import StyleSieve.Pattern.Basic
import StyleSieve.Runtime

/-!
# Faults in patterns

Why a text is not a pattern. Most faults are about a place in the text; their message gives
it as an offset and, where the text has several lines, as line and column too.
-/

namespace StyleSieve.Pattern

open Text

/-- What is wrong with a pattern. -/
inductive Fault where
  | escapeAtEnd
  | badEscape (escape : String)
  | incompleteEscape (escape : String)
  | octalTooLarge (escape : String)
  | undefinedCharacter (name : String)
  | missingBrace
  | missingName (what : String)
  | unterminatedName (terminator : Char)
  | unterminatedSet
  | badRange (lo hi : String)
  | reversedBounds
  | nothingToRepeat
  | multipleRepeat
  | unexpectedEnd
  | unknownExtension (text : String)
  | unterminatedComment
  | unterminatedGroup
  | badGroupName (name : String)
  | unknownGroupName (name : String)
  | redefinedGroup (name : String) (number before : Nat)
  | openGroup
  | sameLookbehind
  | invalidReference (number : Nat)
  | badGroupNumber
  | moreThanTwoBranches
  | unbalancedParenthesis
  | lateGlobalFlags
  | localeFlag
  | incompatibleFlags
  | unknownFlag
  | missingFlag
  | missingFlagEnd
  | missingColon
  | globalFlagOn
  | globalFlagOff
  | turnedOffType
  | contradictoryFlag
  | tooFarBehind
  | variableWidthBehind
  | templateOperator (name : String)
  deriving DecidableEq

/-- The wording of a fault. -/
def Fault.message : Fault → String
  | .escapeAtEnd => "bad escape (end of pattern)"
  | .badEscape e => "bad escape " ++ e
  | .incompleteEscape e => "incomplete escape " ++ e
  | .octalTooLarge e => "octal escape value " ++ e ++ " outside of range 0-0o377"
  | .undefinedCharacter name => "undefined character name " ++ quoted name
  | .missingBrace => "missing \x7b"
  | .missingName what => "missing " ++ what
  | .unterminatedName t => "missing " ++ String.singleton t ++ ", unterminated name"
  | .unterminatedSet => "unterminated character set"
  | .badRange lo hi => "bad character range " ++ lo ++ "-" ++ hi
  | .reversedBounds => "min repeat greater than max repeat"
  | .nothingToRepeat => "nothing to repeat"
  | .multipleRepeat => "multiple repeat"
  | .unexpectedEnd => "unexpected end of pattern"
  | .unknownExtension text => "unknown extension ?" ++ text
  | .unterminatedComment => "missing ), unterminated comment"
  | .unterminatedGroup => "missing ), unterminated subpattern"
  | .badGroupName name => "bad character in group name " ++ quoted name
  | .unknownGroupName name => "unknown group name " ++ quoted name
  | .redefinedGroup name number before =>
    "redefinition of group name " ++ quoted name ++ " as group " ++ toString number ++
      "; was group " ++ toString before
  | .openGroup => "cannot refer to an open group"
  | .sameLookbehind => "cannot refer to group defined in the same lookbehind subpattern"
  | .invalidReference n => "invalid group reference " ++ toString n
  | .badGroupNumber => "bad group number"
  | .moreThanTwoBranches => "conditional backref with more than two branches"
  | .unbalancedParenthesis => "unbalanced parenthesis"
  | .lateGlobalFlags => "global flags not at the start of the expression"
  | .localeFlag => "bad inline flags: cannot use 'L' flag with a str pattern"
  | .incompatibleFlags => "bad inline flags: flags 'a', 'u' and 'L' are incompatible"
  | .unknownFlag => "unknown flag"
  | .missingFlag => "missing flag"
  | .missingFlagEnd => "missing -, : or )"
  | .missingColon => "missing :"
  | .globalFlagOn => "bad inline flags: cannot turn on global flag"
  | .globalFlagOff => "bad inline flags: cannot turn off global flag"
  | .turnedOffType => "bad inline flags: cannot turn off flags 'a', 'u' and 'L'"
  | .contradictoryFlag => "bad inline flags: flag turned on and off"
  | .tooFarBehind => "looks too much behind"
  | .variableWidthBehind => "look-behind requires fixed-width pattern"
  | .templateOperator name => "internal: unsupported template operator " ++ name

/-- Why a text cannot be compiled. -/
inductive Error where
  /-- A fault, with the offset of the place if there is one. -/
  | malformed (fault : Fault) (offset : Option Nat)
  /-- A repetition count that is out of range. -/
  | repetitionTooLarge
  /-- Flags given one by one that rule each other out. -/
  | flagClash
  /-- A limit of the runtime. -/
  | limit (limit : Limit)
  deriving DecidableEq

/-- Whether an error is about a fault in the text. The other errors are not what those who compile a
pattern expect. -/
def Error.isFault : Error → Bool
  | .malformed .. => true
  | _ => false

/-- The wording of an error in the given pattern text. -/
def Error.message (pattern : List Char) : Error → String
  | .malformed fault none => fault.message
  | .malformed fault (some offset) =>
    let place := fault.message ++ " at position " ++ toString offset
    if pattern.contains '\n' then
      let before := pattern.take offset
      let line := before.count '\n' + 1
      let column := (before.reverse.takeWhile (· != '\n')).length + 1
      place ++ " (line " ++ toString line ++ ", column " ++ toString column ++ ")"
    else place
  | .repetitionTooLarge => "the repetition number is too large"
  | .flagClash => "ASCII and UNICODE flags are incompatible"
  | .limit l => l.message

end StyleSieve.Pattern
