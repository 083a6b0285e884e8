import StyleSieve.Bundle
import StyleSieve.Log
import StyleSieve.Pattern.Error

/-!
# Passes

A pass emits events and log records on its way to a result, which may be a failure. What was
emitted before a failure stays emitted.
-/

namespace StyleSieve

/-- Why a module cannot be read. The place is known if a parser other than the own one says so. -/
structure ModuleError where
  message : String
  module? : Option String
  line : Option Int
  column : Option Int
  deriving DecidableEq

/-- Why a pass fails. -/
inductive PassError where
  /-- A module of the build cannot be read. -/
  | unreadableModule (error : ModuleError)
  /-- A token cannot even be asked whether it is a pattern. -/
  | pattern (error : Pattern.Error)
  /-- What is registered for the extension of some content is no extractor. -/
  | notAnExtractor
  /-- A content pattern names a directory with a NUL in it. -/
  | nullInPath
  /-- There is no working with less than no workers. -/
  | workerCount
  /-- An asset to replace is not there. -/
  | bundle (error : Bundle.Error)
  /-- An engine fails for a reason of its own. -/
  | engine (reason : String)
  deriving DecidableEq

/-- A pass with events of type `ε` and a result of type `α`. -/
structure Pass (ε α : Type) where
  events : List ε
  log : List LogRecord
  result : Except PassError α

namespace Pass

variable {ε α β : Type}

/-- The pass that only has a result. -/
protected def pure (a : α) : Pass ε α := ⟨[], [], .ok a⟩

/-- One pass, and if it does not fail, the next. -/
protected def bind (p : Pass ε α) (next : α → Pass ε β) : Pass ε β :=
  match p.result with
  | .error e => ⟨p.events, p.log, .error e⟩
  | .ok a => ⟨p.events ++ (next a).events, p.log ++ (next a).log, (next a).result⟩

instance : Monad (Pass ε) where
  pure := Pass.pure
  bind := Pass.bind

/-- Emits an event. -/
def emit (event : ε) : Pass ε Unit := ⟨[event], [], .ok ()⟩

/-- Adds records to the log. -/
def report (records : List LogRecord) : Pass ε Unit := ⟨[], records, .ok ()⟩

/-- Adds a message to the log. -/
def note (severity : Severity) (source message : String) : Pass ε Unit :=
  report [⟨severity, source, message⟩]

/-- Fails. -/
def fail (e : PassError) : Pass ε α := ⟨[], [], .error e⟩

/-- Goes on with a result that may be a failure. -/
def ofExcept (result : Except PassError α) : Pass ε α := ⟨[], [], result⟩

end Pass

end StyleSieve
