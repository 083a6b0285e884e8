import StyleSieve.Json.Reader
import StyleSieve.Script.Literal
import StyleSieve.Extractor
import StyleSieve.Text.Case
import StyleSieve.Selector.Admission
import StyleSieve.Pattern.Matcher
import StyleSieve.Pattern.Escape
import StyleSieve.Stylesheet
import StyleSieve.Path
import StyleSieve.Log
import StyleSieve.Safelist
import StyleSieve.Options
import StyleSieve.Setting
import StyleSieve.Options.Error
import StyleSieve.Safelist.Reader
import StyleSieve.Options.Reader
import StyleSieve.Usage
import StyleSieve.Purge
import StyleSieve.Text.Utf8
import StyleSieve.Text.LineEnd
import StyleSieve.FileTree
import StyleSieve.Wildcard
import StyleSieve.Glob
import StyleSieve.Pass
import StyleSieve.Engine
import StyleSieve.Bundle
import StyleSieve.Event
import StyleSieve.Event.Bus
import StyleSieve.Script.Tree
import StyleSieve.Script.Grammar.Full
import StyleSieve.Script.Grammar.Table
import StyleSieve.Script.Token
import StyleSieve.Script.Layout
import StyleSieve.Script.Grammar.Kernel
import StyleSieve.Script.Lexeme
import StyleSieve.Script.Parser
import StyleSieve.Module
import StyleSieve.AssetPurge
import StyleSieve.Plugin
import StyleSieve.DirectoryBuild
import StyleSieve.Text.Similarity
import StyleSieve.Command.Line
import StyleSieve.Command.Config
import StyleSieve.Command.Run
import StyleSieve.Main
import StyleSieve.Proofs.Usage.Verdict
import StyleSieve.Proofs.Usage.Document
import StyleSieve.Proofs.Purge.Exposed
import StyleSieve.Proofs.Purge.Account
import StyleSieve.Proofs.Pass.Result
import StyleSieve.Proofs.Extractor.Tokens
import StyleSieve.Proofs.Usage.Evidence
import StyleSieve.Proofs.Engine.Content
import StyleSieve.Proofs.Engine.Source
import StyleSieve.Proofs.Bundle.Names
import StyleSieve.Proofs.Bundle.Replace
import StyleSieve.Proofs.Plugin.Assets
import StyleSieve.Proofs.Plugin.Sequential
import StyleSieve.Proofs.Plugin.Failure
import StyleSieve.Proofs.Plugin.Discovery
import StyleSieve.Proofs.Plugin.LiveModules
import StyleSieve.Proofs.Plugin.Evidence
import StyleSieve.Proofs.Text.Runs
import StyleSieve.Proofs.Usage.Markup
import StyleSieve.Proofs.Css.Stop
import StyleSieve.Proofs.Css.Scan
import StyleSieve.Proofs.Css.Nest
import StyleSieve.Proofs.Css.Spelling
import StyleSieve.Proofs.Stylesheet.Gather
import StyleSieve.Proofs.Stylesheet.Steady
import StyleSieve.Proofs.Purge.Steady
import StyleSieve.Proofs.Stylesheet.ReadBack
import StyleSieve.Proofs.Text.Trim
import StyleSieve.Proofs.Stylesheet.Trim
import StyleSieve.Proofs.Engine.Again
import StyleSieve.Proofs.Selector.Name
import StyleSieve.Proofs.Selector.Spelling
import StyleSieve.Proofs.Selector.Bracket
import StyleSieve.Proofs.Selector.Scan
import StyleSieve.Proofs.Plugin.Classes
import StyleSieve.Proofs.Selector.AttributeTerm
import StyleSieve.Proofs.Selector.Printed
import StyleSieve.Proofs.Selector.Loose
import StyleSieve.Proofs.Selector.Candidate
import StyleSieve.Proofs.Selector.Lexemes
import StyleSieve.Proofs.Css.Forms
import StyleSieve.Proofs.Selector.Steps
import StyleSieve.Proofs.Selector.Bracketed
import StyleSieve.Proofs.Selector.Opening
import StyleSieve.Proofs.Selector.Unescape
import StyleSieve.Proofs.Selector.TakenWhole
import StyleSieve.Proofs.Selector.TakenApart
import StyleSieve.Proofs.Selector.Requoted
import StyleSieve.Proofs.Selector.Attributes
import StyleSieve.Proofs.Selector.Parts
import StyleSieve.Proofs.Selector.Row
import StyleSieve.Proofs.Selector.Segments
import StyleSieve.Proofs.FileTree.Places
import StyleSieve.Proofs.DirectoryBuild.Frame
import StyleSieve.Proofs.Usage.Expansion
import StyleSieve.Proofs.Usage.Blocked
import StyleSieve.Proofs.Plugin.Trace
import StyleSieve.Proofs.Stylesheet.Rewritten
import StyleSieve.Proofs.Purge.Comments
import StyleSieve.Proofs.Plugin.Admission
import StyleSieve.Proofs.Text.Digits
import StyleSieve.Proofs.Script.Escapes
import StyleSieve.Proofs.Script.CodePoints
import StyleSieve.Proofs.Script.Spellings
import StyleSieve.Proofs.Script.Harvest
import StyleSieve.Proofs.Script.DigitEscapes
import StyleSieve.Proofs.Pattern.Literal
import StyleSieve.Proofs.Pattern.Plain
import StyleSieve.Proofs.Selector.Utility
import StyleSieve.Proofs.Command.Flags
import StyleSieve.Proofs.Options.Reads
import StyleSieve.Proofs.FileTree.Lookup
import StyleSieve.Proofs.Glob.Names
import StyleSieve.Proofs.Glob.Expand
import StyleSieve.Proofs.Glob.Pages
import StyleSieve.Proofs.Plugin.Pages
import StyleSieve.Proofs.Safelist.Literal
import StyleSieve.Proofs.Options.Untold
import StyleSieve.Proofs.Options.Computed
import StyleSieve.Proofs.Text.LetterCase
import StyleSieve.Proofs.Usage.LetterCase
import StyleSieve.Proofs.Bundle.History
import StyleSieve.Proofs.Event.Run
import StyleSieve.Proofs.Event.Delivery
import StyleSieve.Proofs.Text.Utf8
import StyleSieve.Proofs.Script.Segments
