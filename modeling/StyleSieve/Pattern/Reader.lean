import StyleSieve.Pattern.Error
import StyleSieve.Text.Blank

/-!
# Reading patterns

The reader goes through the text symbol by symbol, where a backslash and the character behind
it make one symbol. It always looks one symbol ahead, so a lone backslash at the end is noticed
as soon as the symbol before it is passed.
-/

namespace StyleSieve.Pattern

open Text

variable [Runtime]

/-- A character, or a backslash with a character. -/
inductive Symbol where
  | plain (c : Char)
  | escaped (c : Char)
  deriving DecidableEq

/-- The symbol as written. -/
def Symbol.text : Symbol → List Char
  | .plain c => [c]
  | .escaped c => ['\\', c]

/-- Where the reader stands and what it knows about groups and flags. -/
structure State where
  rest : List Char
  offset : Nat
  flags : Flags
  /-- Names of groups with their numbers. -/
  names : List (String × Nat)
  /-- The widths of the groups from number zero on; absent for groups that are open. -/
  widths : List (Option Width)
  /-- How many groups there were at the start of the lookbehind that is being read. -/
  lookbehind : Option Nat
  /-- Group numbers that conditions ask for, with the offset of the first such place. -/
  asked : List (Nat × Nat)

/-- A reader changes the state or finds an error. -/
abbrev Reader := StateT State (Except Error)

/-- Fails with a fault at an offset. -/
def failAt {α : Type} (offset : Nat) (fault : Fault) : Reader α :=
  throw (.malformed fault (some offset))

/-- Fails with a fault `back` characters before the next symbol. -/
def fail {α : Type} (fault : Fault) (back : Nat := 0) : Reader α := do
  failAt ((← get).offset - back) fault

/-- The next symbol. -/
def symbolAt : List Char → Option Symbol
  | [] => none
  | '\\' :: c :: _ => some (.escaped c)
  | c :: _ => some (.plain c)

/-- The next symbol. -/
def peek : Reader (Option Symbol) := do
  return symbolAt (← get).rest

/-- Passes the given number of characters. -/
def pass (n : Nat) : Reader Unit := do
  let s ← get
  let rest := s.rest.drop n
  if rest == ['\\'] then failAt (s.offset + n) .escapeAtEnd
  else set { s with rest := rest, offset := s.offset + n }

/-- Takes the next symbol. -/
def take : Reader (Option Symbol) := do
  match ← peek with
  | none => return none
  | some symbol => do
    pass symbol.text.length
    return some symbol

/-- Passes the given character if it is next. -/
def accept (c : Char) : Reader Bool := do
  if (← peek) == some (.plain c) then
    pass 1
    return true
  else return false

/-- Takes at most `n` characters of a class. -/
def takeWhile (isIn : Char → Bool) : Nat → Reader (List Char)
  | 0 => return []
  | n + 1 => do
    match ← peek with
    | some (.plain c) =>
      if isIn c then
        pass 1
        return c :: (← takeWhile isIn n)
      else return []
    | _ => return []

/-- Takes everything up to a terminator, which is passed; `what` says what is being read. -/
def takeUntil (terminator : Char) (what : String) : Nat → List Char → Reader (List Char)
  | 0, _ => fail (.missingName what)
  | fuel + 1, taken => do
    match ← take with
    | none =>
      if taken.isEmpty then fail (.missingName what)
      else fail (.unterminatedName terminator) taken.length
    | some symbol =>
      if symbol == .plain terminator then
        if taken.isEmpty then fail (.missingName what) 1 else return taken
      else takeUntil terminator what fuel (taken ++ symbol.text)

/-- How many steps suffice to read what is left. -/
def stepsLeft : Reader Nat := do
  return (← get).rest.length + 1

/-- Reads the name of a group up to its terminator. -/
def readGroupName (terminator : Char) : Reader String := do
  let name ← takeUntil terminator "group name" (← stepsLeft) []
  if isName name then return String.ofList name
  else fail (.badGroupName (String.ofList name)) (name.length + 1)

/-- The value of an escape with a letter for a control character. -/
def controlEscape : Char → Option Nat
  | 'a' => some 7
  | 'f' => some 12
  | 'n' => some 10
  | 'r' => some 13
  | 't' => some 9
  | 'v' => some 11
  | '\\' => some 92
  | _ => none

/-- The class that an escape with a letter stands for. -/
def categoryEscape : Char → Option SetItem
  | 'd' => some (.category false .digit)
  | 'D' => some (.category true .digit)
  | 's' => some (.category false .space)
  | 'S' => some (.category true .space)
  | 'w' => some (.category false .word)
  | 'W' => some (.category true .word)
  | _ => none

/-- The place that an escape with a letter stands for. -/
def anchorEscape : Char → Option Anchor
  | 'A' => some .textStart
  | 'b' => some .boundary
  | 'B' => some .noBoundary
  | 'Z' => some .textEnd
  | _ => none

/-- Reads the digits of a numeric escape whose letter has been passed. -/
def readCodeEscape (letter : Char) (count : Nat) : Reader Nat := do
  let digits ← takeWhile isHexDigit count
  let escape := '\\' :: letter :: digits
  if digits.length != count then
    fail (.incompleteEscape (String.ofList escape)) escape.length
  else
    let code := digitsValue 16 digits
    if 0x10FFFF < code then fail (.badEscape (String.ofList escape)) escape.length
    else return code

/-- Reads an escape by the name of a character. -/
def readNamedEscape : Reader Nat := do
  if !(← accept '{') then fail .missingBrace
  else
    let name ← takeUntil '}' "character name" (← stepsLeft) []
    match Runtime.named? (String.ofList name) with
    | some c => return c.toNat
    | none => fail (.undefinedCharacter (String.ofList name)) (name.length + 4)

/-- The value of an octal escape, which must fit into eight bits. -/
def octalValue (digits : List Char) : Reader Nat := do
  let code := digitsValue 8 digits
  if 0o377 < code then
    fail (.octalTooLarge (String.ofList ('\\' :: digits))) (digits.length + 1)
  else return code

/-- The code of an escape that is the same inside and outside of sets; `none` for the others. -/
def readCommonEscape (c : Char) : Reader (Option Nat) := do
  match c with
  | 'x' => return some (← readCodeEscape c 2)
  | 'u' => return some (← readCodeEscape c 4)
  | 'U' => return some (← readCodeEscape c 8)
  | 'N' => return some (← readNamedEscape)
  | _ => return none

/-- The code of a backslash with a character that has no meaning of its own: letters are not
allowed. -/
def readPlainEscape (c : Char) : Reader Nat := do
  if isAsciiLetter c || isAsciiDigit c then
    fail (.badEscape (String.ofList ['\\', c])) 2
  else return c.toNat

/-- Reads an escape inside a set, of which the first two characters have been passed. -/
def readSetEscape (c : Char) : Reader SetItem := do
  if c == 'b' then return .literal 8
  match controlEscape c with
  | some code => return .literal code
  | none =>
    match categoryEscape c with
    | some item => return item
    | none =>
      match ← readCommonEscape c with
      | some code => return .literal code
      | none =>
        if isOctalDigit c then
          return .literal (← octalValue (c :: (← takeWhile isOctalDigit 2)))
        else return .literal (← readPlainEscape c)

/-- Whether a group is closed. -/
def isClosed (number : Nat) : Reader Bool := do
  return ((← get).widths[number]?.getD none).isSome

/-- Inside a lookbehind, only groups that were closed before it may be referred to. -/
def checkLookbehind (number : Nat) : Reader Unit := do
  match (← get).lookbehind with
  | none => return
  | some limit =>
    if !(← isClosed number) then fail .openGroup
    else if limit ≤ number then fail .sameLookbehind
    else return

/-- Reads a reference to a group by number; `digits` have been passed. -/
def readReference (digits : List Char) : Reader Node := do
  let number := digitsValue 10 digits
  if number < (← get).widths.length then
    if !(← isClosed number) then fail .openGroup (digits.length + 1)
    else
      checkLookbehind number
      return .reference number
  else fail (.invalidReference number) digits.length

/-- Reads an escape that starts with a digit other than zero: three octal digits are a code,
anything else refers to a group. -/
def readDigitEscape (c : Char) : Reader Node := do
  let second ← takeWhile isAsciiDigit 1
  match second with
  | [d] =>
    if isOctalDigit c && isOctalDigit d then
      match ← takeWhile isOctalDigit 1 with
      | [e] => return .literal (← octalValue [c, d, e])
      | _ => readReference [c, d]
    else readReference [c, d]
  | _ => readReference [c]

/-- Reads an escape outside of sets, of which the first two characters have been passed. -/
def readEscape (c : Char) : Reader Node := do
  match anchorEscape c with
  | some place => return .anchor place
  | none =>
    match categoryEscape c with
    | some item => return .set false [item]
    | none =>
      match controlEscape c with
      | some code => return .literal code
      | none =>
        match ← readCommonEscape c with
        | some code => return .literal code
        | none =>
          if c == '0' then
            return .literal (digitsValue 8 (c :: (← takeWhile isOctalDigit 2)))
          else if isAsciiDigit c then readDigitEscape c
          else return .literal (← readPlainEscape c)

/-- The member of a set that a symbol begins. -/
def readSetMember : Symbol → Reader SetItem
  | .plain c => return .literal c.toNat
  | .escaped c => readSetEscape c

/-- Reads a set up to its closing bracket. The set begins at `start`; a bracket that comes
first is a member. -/
def readSetRest (start : Nat) : Nat → List SetItem → Reader (List SetItem)
  | 0, _ => failAt start .unterminatedSet
  | fuel + 1, items => do
    match ← take with
    | none => failAt start .unterminatedSet
    | some first =>
      if first == .plain ']' && !items.isEmpty then return items
      else
        let lo ← readSetMember first
        if ← accept '-' then
          match ← take with
          | none => failAt start .unterminatedSet
          | some last =>
            if last == .plain ']' then return items ++ [lo, .literal '-'.toNat]
            else
              let hi ← readSetMember last
              let bad : Reader (List SetItem) :=
                fail (.badRange (String.ofList first.text) (String.ofList last.text))
                  (first.text.length + 1 + last.text.length)
              match lo, hi with
              | .literal a, .literal b =>
                if b < a then bad else readSetRest start fuel (items ++ [.range a b])
              | _, _ => bad
        else readSetRest start fuel (items ++ [lo])

/-- Keeps the first of equal members. -/
def uniqueItems (items : List SetItem) : List SetItem :=
  items.foldl (fun seen item => if seen.contains item then seen else seen ++ [item]) []

/-- Reads a set whose opening bracket has been passed. -/
def readSet : Reader Node := do
  let start := (← get).offset - 1
  let negated ← accept '^'
  let items := uniqueItems (← readSetRest start (← stepsLeft) [])
  match items with
  | [.literal code] => return if negated then .notLiteral code else .literal code
  | _ => return .set negated items

/-- The bounds of a repetition in braces whose opening brace has been passed; `none` where the
brace stands for itself. -/
def readBraces : Reader (Option (Nat × Option Nat)) := do
  if (← peek) == some (.plain '}') then return none
  let here ← get
  let limit ← stepsLeft
  let lo ← takeWhile isAsciiDigit limit
  let comma ← accept ','
  let more ← takeWhile isAsciiDigit (if comma then limit else 0)
  let hi := if comma then more else lo
  if !(← accept '}') then
    set here
    return none
  else
    let least := digitsValue 10 lo
    let most := digitsValue 10 hi
    if maxDigits < lo.length then throw (.limit .digits)
    else if maxRepeat ≤ least then throw .repetitionTooLarge
    else if hi.isEmpty then return some (least, none)
    else if maxDigits < hi.length then throw (.limit .digits)
    else if maxRepeat ≤ most then throw .repetitionTooLarge
    else if most < least then failAt here.offset .reversedBounds
    else return some (least, some most)

/-- The bounds of a repetition whose sign has been passed; `none` where the sign stands for
itself. -/
def readBounds (sign : Char) : Reader (Option (Nat × Option Nat)) :=
  match sign with
  | '?' => return some (0, some 1)
  | '*' => return some (0, none)
  | '+' => return some (1, none)
  | _ => readBraces

/-- The body of a repetition: a group that does nothing else is left out. -/
def repeatedBody : Node → List Node
  | .group none on off body =>
    if on == {} && off == {} then body else [.group none on off body]
  | node => [node]

/-- Reads the sign behind a repetition that says which number of repetitions is preferred. -/
def readGreed : Reader Greed := do
  if ← accept '?' then return .lazy
  else do
    let possessive ← accept '+'
    return if possessive then .possessive else .greedy

/-- Applies a repetition, whose sign stands at `start`, to the last of the pieces that have
been read, which are given in reverse. -/
def repeatLast (start : Nat) (bounds : Nat × Option Nat) : List Node → Reader (List Node)
  | [] => failAt start .nothingToRepeat
  | .anchor _ :: _ => failAt start .nothingToRepeat
  | .repetition .. :: _ => failAt start .multipleRepeat
  | node :: before => do
    return .repetition (← readGreed) bounds.1 bounds.2 (repeatedBody node) :: before

/-- The flag that a letter stands for. -/
def flagOf : Char → Option Flags
  | 'i' => some { ignoreCase := true }
  | 'm' => some { multiline := true }
  | 's' => some { dotAll := true }
  | 'x' => some { verbose := true }
  | 'a' => some { ascii := true }
  | 'u' => some { unicode := true }
  | 't' => some { template := true }
  | _ => none

/-- Whether a symbol is a letter that no flag goes by. -/
def isLetter : Symbol → Bool
  | .plain c => isNameStart c && c != '_'
  | .escaped _ => false

/-- Reads flags to be turned on, from the letter `c` on. Gives the flags and the sign that ends
them. -/
def readFlagsOn : Nat → Flags → Char → Reader (Flags × Char)
  | 0, _, _ => fail .missingFlagEnd
  | fuel + 1, flags, c => do
    if c == 'L' then fail .localeFlag
    else
      let flag := (flagOf c).getD {}
      let flags := flags.union flag
      if flags.ascii && flags.unicode && (flag.ascii || flag.unicode) then fail .incompatibleFlags
      else
        match ← take with
        | none => fail .missingFlagEnd
        | some symbol =>
          match symbol with
          | .plain d =>
            if d == ')' || d == '-' || d == ':' then return (flags, d)
            else if (flagOf d).isSome || d == 'L' then readFlagsOn fuel flags d
            else fail (if isLetter symbol then .unknownFlag else .missingFlagEnd) 1
          | .escaped _ => fail .missingFlagEnd 2

/-- Reads flags to be turned off, from the letter `c` on, up to the colon. -/
def readFlagsOff : Nat → Flags → Char → Reader Flags
  | 0, _, _ => fail .missingColon
  | fuel + 1, flags, c => do
    let flag := (flagOf c).getD {}
    if flag.ascii || flag.unicode || c == 'L' then fail .turnedOffType
    else
      let flags := flags.union flag
      match ← take with
      | none => fail .missingColon
      | some symbol =>
        match symbol with
        | .plain d =>
          if d == ':' then return flags
          else if (flagOf d).isSome || d == 'L' then readFlagsOff fuel flags d
          else fail (if isLetter symbol then .unknownFlag else .missingColon) 1
        | .escaped _ => fail .missingColon 2

/-- Reads the flags to be turned off behind a hyphen, up to the colon. -/
def readFlagsBehindHyphen : Reader Flags := do
  match ← take with
  | none => fail .missingFlag
  | some symbol =>
    match symbol with
    | .plain d =>
      if (flagOf d).isSome || d == 'L' then readFlagsOff (← stepsLeft) {} d
      else fail (if isLetter symbol then .unknownFlag else .missingFlag) 1
    | .escaped _ => fail .missingFlag 2

/-- Finishes the flags of a group: `on` are turned on, and `sign` ends them. -/
def finishFlags (on : Flags) (sign : Char) : Reader (Option (Flags × Flags)) := do
  if sign == ')' then
    modify fun s => { s with flags := s.flags.union on }
    return none
  else if on.template then fail .globalFlagOn 1
  else if sign == '-' then
    let off ← readFlagsBehindHyphen
    if off.template then fail .globalFlagOff 1
    else if on.meets off then fail .contradictoryFlag 1
    else return some (on, off)
  else return some (on, {})

/-- Reads the flags of a group from the letter or hyphen `c` on; `none` where they hold for the
whole pattern. -/
def readFlags (c : Char) : Reader (Option (Flags × Flags)) := do
  if c == '-' then finishFlags {} '-'
  else
    let (on, sign) ← readFlagsOn (← stepsLeft) {} c
    finishFlags on sign

/-- Opens a capturing group and gives its number. -/
def openGroup (name : Option String) : Reader Nat := do
  let s ← get
  let number := s.widths.length
  match name with
  | none => set { s with widths := s.widths ++ [none] }
  | some name =>
    match s.names.find? (·.1 == name) with
    | some (_, before) => fail (.redefinedGroup name number before) (name.length + 1)
    | none => set { s with widths := s.widths ++ [none], names := s.names ++ [(name, number)] }
  return number

/-- Closes a capturing group. -/
def closeGroup (number : Nat) (body : List Node) : Reader Unit :=
  modify fun s =>
    { s with widths := s.widths.set number (some (capWidth (sequenceWidth s.widths body))) }

/-- Passes a closing parenthesis; the group was opened at `start`. -/
def closeParenthesis (start : Nat) : Reader Unit := do
  if !(← accept ')') then failAt start .unterminatedGroup

/-- Passes a comment up to its closing parenthesis. -/
def passComment (start : Nat) : Nat → Reader Unit
  | 0 => failAt start .unterminatedComment
  | fuel + 1 => do
    match ← take with
    | none => failAt start .unterminatedComment
    | some symbol => if symbol == .plain ')' then return else passComment start fuel

/-- Passes a comment up to the end of the line. -/
def passLine : Nat → Reader Unit
  | 0 => return
  | fuel + 1 => do
    match ← take with
    | none => return
    | some symbol => if symbol == .plain '\n' then return else passLine fuel

/-- The number that a text denotes: digits of any script with single underscores between them, not
too many of them, a sign in front, blanks around. -/
def numberOf (text : List Char) : Option Int :=
  let body := trimChars text
  let (negative, digits) := match body with
    | '-' :: ds => (true, ds)
    | '+' :: ds => (false, ds)
    | ds => (false, ds)
  let rec value (acc : Nat) (afterDigit : Bool) : List Char → Option Nat
    | [] => if afterDigit then some acc else none
    | '_' :: rest => if afterDigit then value acc false rest else none
    | c :: rest => (digitValue? c).bind fun d => value (acc * 10 + d) true rest
  if maxDigits < (digits.filter (· != '_')).length then none
  else (value 0 false digits).map fun n => if negative then -(n : Int) else (n : Int)

/-- Reads the group that a condition asks for, up to the closing parenthesis. -/
def readConditionGroup : Reader Nat := do
  let name ← takeUntil ')' "group name" (← stepsLeft) []
  let text := String.ofList name
  let back := name.length + 1
  if isName name then
    match (← get).names.find? (·.1 == text) with
    | none => fail (.unknownGroupName text) back
    | some (_, number) => return number
  else
    match numberOf name with
    | none => fail (.badGroupName text) back
    | some n =>
      if n < 0 then fail (.badGroupName text) back
      else if n == 0 then fail .badGroupNumber back
      else if 1073741823 ≤ n then fail (.invalidReference n.toNat) back
      else
        let number := n.toNat
        modify fun s =>
          if s.asked.any (·.1 == number) then s
          else { s with asked := s.asked ++ [(number, s.offset - back)] }
        return number

/-- Reads a reference by name, up to the closing parenthesis. -/
def readNamedReference : Reader Node := do
  let name ← readGroupName ')'
  match (← get).names.find? (·.1 == name) with
  | none => fail (.unknownGroupName name) (name.length + 1)
  | some (_, number) =>
    if !(← isClosed number) then fail .openGroup (name.length + 1)
    else
      checkLookbehind number
      return .reference number

mutual

/-- Reads alternatives up to a closing parenthesis or the end. `alternatives` are those that
have been read, in reverse; `top` tells whether this is the whole pattern. -/
def readAlternatives (top verbose : Bool) : Nat → List (List Node) → Reader (List Node)
  | 0, _ => fail .unexpectedEnd
  | fuel + 1, alternatives => do
    let items ← readSequence top (top && alternatives.isEmpty) verbose fuel []
    let alternatives := items :: alternatives
    if ← accept '|' then
      let s ← get
      readAlternatives top (if top then s.flags.verbose else verbose) fuel alternatives
    else
      match alternatives with
      | [single] => return single
      | _ => return [.branch alternatives.reverse]

/-- Reads pieces up to a bar, a closing parenthesis or the end. `items` are those that have
been read, in reverse; `first` tells whether flags for the whole pattern may still come. -/
def readSequence (top first verbose : Bool) : Nat → List Node → Reader (List Node)
  | 0, _ => fail .unexpectedEnd
  | fuel + 1, items => do
    match ← peek with
    | none => return items.reverse
    | some (.escaped c) =>
      pass 2
      readSequence top first verbose fuel ((← readEscape c) :: items)
    | some (.plain c) =>
      if c == '|' || c == ')' then return items.reverse
      else
        let start := (← get).offset
        pass 1
        if verbose && [' ', '\t', '\n', '\r', '\x0b', '\x0c'].contains c then
          readSequence top first verbose fuel items
        else if verbose && c == '#' then
          passLine (← stepsLeft)
          readSequence top first verbose fuel items
        else if c == '[' then
          readSequence top first verbose fuel ((← readSet) :: items)
        else if ['?', '*', '+', '{'].contains c then
          match ← readBounds c with
          | none => readSequence top first verbose fuel (.literal c.toNat :: items)
          | some bounds =>
            readSequence top first verbose fuel (← repeatLast start bounds items)
        else if c == '.' then readSequence top first verbose fuel (.any :: items)
        else if c == '^' then readSequence top first verbose fuel (.anchor .start :: items)
        else if c == '$' then readSequence top first verbose fuel (.anchor .finish :: items)
        else if c == '(' then
          if !(← accept '?') then
            let node ← readGroup verbose start none fuel
            readSequence top first verbose fuel (node :: items)
          else
            match ← take with
            | none => fail .unexpectedEnd
            | some (.escaped d) => fail (.unknownExtension (String.ofList ['\\', d])) 3
            | some (.plain d) =>
              if d == '#' then
                passComment start (← stepsLeft)
                readSequence top first verbose fuel items
              else if (flagOf d).isSome || d == 'L' || d == '-' then
                match ← readFlags d with
                | none =>
                  if !first || !items.isEmpty then failAt start .lateGlobalFlags
                  else
                    let s ← get
                    readSequence top first s.flags.verbose fuel items
                | some (on, off) =>
                  let inner := (verbose || on.verbose) && !off.verbose
                  let body ← readAlternatives false inner fuel []
                  closeParenthesis start
                  readSequence top first verbose fuel (.group none on off body :: items)
              else
                let node ← readExtension verbose start d fuel
                readSequence top first verbose fuel (node :: items)
        else readSequence top first verbose fuel (.literal c.toNat :: items)

/-- Reads a capturing group whose opening has been passed. -/
def readGroup (verbose : Bool) (start : Nat) (name : Option String) : Nat → Reader Node
  | 0 => fail .unexpectedEnd
  | fuel + 1 => do
    let number ← openGroup name
    let body ← readAlternatives false verbose fuel []
    closeParenthesis start
    closeGroup number body
    return .group (some number) {} {} body

/-- Reads a group that begins with a question mark and the sign `d`. -/
def readExtension (verbose : Bool) (start : Nat) (d : Char) : Nat → Reader Node
  | 0 => fail .unexpectedEnd
  | fuel + 1 => do
    match d with
    | 'P' =>
      if ← accept '<' then
        let name ← readGroupName '>'
        readGroup verbose start (some name) fuel
      else if ← accept '=' then readNamedReference
      else
        match ← take with
        | none => fail .unexpectedEnd
        | some symbol =>
          fail (.unknownExtension (String.ofList ('P' :: symbol.text))) (symbol.text.length + 2)
    | ':' =>
      let body ← readAlternatives false verbose fuel []
      closeParenthesis start
      return .group none {} {} body
    | '>' =>
      let body ← readAlternatives false verbose fuel []
      closeParenthesis start
      return .atomic body
    | '=' =>
      let body ← readAlternatives false verbose fuel []
      closeParenthesis start
      return .look false false body
    | '!' =>
      let body ← readAlternatives false verbose fuel []
      closeParenthesis start
      return .look false true body
    | '<' =>
      match ← take with
      | none => fail .unexpectedEnd
      | some symbol =>
        if symbol == .plain '=' || symbol == .plain '!' then
          let outer := (← get).lookbehind
          modify fun s => { s with lookbehind := some (outer.getD s.widths.length) }
          let body ← readAlternatives false verbose fuel []
          modify fun s => { s with lookbehind := outer }
          closeParenthesis start
          return .look true (symbol == .plain '!') body
        else
          fail (.unknownExtension (String.ofList ('<' :: symbol.text))) (symbol.text.length + 2)
    | '(' =>
      let number ← readConditionGroup
      checkLookbehind number
      let yes ← readSequence false false verbose fuel []
      if ← accept '|' then
        let no ← readSequence false false verbose fuel []
        if (← peek) == some (.plain '|') then fail .moreThanTwoBranches
        else
          closeParenthesis start
          return .condition number yes no
      else
        closeParenthesis start
        return .condition number yes []
    | _ => fail (.unknownExtension (String.singleton d)) 2

end

mutual

/-- The first fault that shows only once the widths of all groups are known. -/
def Node.check (template : Bool) (groups : List (Option Width)) : Node → Except Error Unit
  | .group _ _ _ body => checkAll template groups body
  | .atomic body => checkAll template groups body
  | .repetition greed _ _ body =>
    if template then .error (.malformed (.templateOperator greed.operator) none)
    else checkAll template groups body
  | .branch alternatives => checkBranches template groups alternatives
  | .condition _ yes no => do
    checkAll template groups yes
    checkAll template groups no
  | .look behind _ body => do
    let (lo, hi) := capWidth (sequenceWidth groups body)
    if behind && maxRepeat < lo then .error (.malformed .tooFarBehind none)
    else if behind && lo != hi then .error (.malformed .variableWidthBehind none)
    else checkAll template groups body
  | _ => .ok ()

/-- Checks pieces in a row. -/
def checkAll (template : Bool) (groups : List (Option Width)) : List Node → Except Error Unit
  | [] => .ok ()
  | node :: rest => do
    node.check template groups
    checkAll template groups rest

/-- Checks alternatives. -/
def checkBranches (template : Bool) (groups : List (Option Width)) :
    List (List Node) → Except Error Unit
  | [] => .ok ()
  | body :: rest => do
    checkAll template groups body
    checkBranches template groups rest

end

end StyleSieve.Pattern

namespace StyleSieve

/-- A pattern that has been read. -/
structure Pattern where
  source : String
  flags : Pattern.Flags
  nodes : List Pattern.Node
  widths : List (Option Pattern.Width)

namespace Pattern

variable [Runtime]

/-- Reads the whole text as a pattern. -/
def readAll (text : List Char) : Reader (List Node) := do
  pass 0
  let nodes ← readAlternatives true false (3 * text.length + 8) []
  let s ← get
  if s.flags.ascii && s.flags.unicode then throw .flagClash
  else if !s.rest.isEmpty then fail .unbalancedParenthesis
  else
    match s.asked.find? (fun a => s.widths.length ≤ a.1) with
    | some (number, offset) => failAt offset (.invalidReference number)
    | none => return nodes

/-- Compiles a text to a pattern. -/
def compile (source : String) : Except Error Pattern := do
  if Runtime.exhausts source then throw (.limit .stack)
  let text := source.toList
  let start : State := ⟨text, 0, {}, [], [none], none, []⟩
  let (nodes, s) ← (readAll text).run start
  checkAll s.flags.template s.widths nodes
  return ⟨source, s.flags, nodes, s.widths⟩

end Pattern

end StyleSieve
