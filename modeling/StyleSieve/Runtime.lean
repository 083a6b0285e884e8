/-!
# The runtime

Two things in the reading of patterns and of option values are not decided by their texts alone.
Patterns can call characters by names, which are looked up in a database of the runtime, and what is
nested too deep exhausts the runtime's stack. Both are taken as they are given. Integers with too
many digits are refused whatever is read or spelled.
-/

namespace StyleSieve

/-- Whether the source of a pattern opens a group: it has a parenthesis without a backslash. -/
def opensGroup : List Char → Bool
  | [] => false
  | '\\' :: _ :: rest => opensGroup rest
  | c :: rest => c == '(' || opensGroup rest

/-- How many digits an integer may have that is read or spelled. -/
def maxDigits : Nat := 4300

/-- A limit of the runtime that is passed. -/
inductive Limit where
  /-- Something is nested deeper than there is room for on the stack. -/
  | stack
  /-- An integer has too many digits. -/
  | digits
  deriving DecidableEq

/-- How the limit is called. -/
def Limit.message : Limit → String
  | .stack => "maximum recursion depth exceeded"
  | .digits =>
    "Exceeds the limit (" ++ toString maxDigits ++ " digits) for integer string conversion"

/-- What reading takes from the runtime. -/
class Runtime where
  /-- The character that goes by a name. -/
  named? : String → Option Char
  /-- Whether a pattern has its groups nested too deep. -/
  exhausts : String → Bool
  /-- Nothing but groups can be nested in patterns. -/
  opensGroup_of_exhausts (source : String) :
    exhausts source = true → opensGroup source.toList = true
  /-- How deep values can be nested in each other when they are spelled. -/
  levels : Nat

/-- A runtime that knows no names and has room for every pattern. -/
@[reducible] def Runtime.plain : Runtime where
  named? _ := none
  exhausts _ := false
  opensGroup_of_exhausts _ := nofun
  levels := 900

/-- Without another choice, nothing is asked of the runtime but to spell values. -/
instance (priority := low) : Runtime := .plain

end StyleSieve
