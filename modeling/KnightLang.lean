import KnightLang.Main
import KnightLang.Proofs.Execution.Cells
import KnightLang.Proofs.Execution.Panics
import KnightLang.Proofs.Execution.Recursion
import KnightLang.Proofs.Execution.Reuse
import KnightLang.Proofs.Grammar.Acceptance
import KnightLang.Proofs.Lexing.Layout
import KnightLang.Proofs.Lockstep.Unobservable
import KnightLang.Proofs.Rendering.Determination
import KnightLang.Proofs.Strings.Content
import KnightLang.Proofs.Strings.Provenance
import KnightLang.Proofs.Console.Effects
import KnightLang.Proofs.Console.Turns
import KnightLang.Proofs.Execution.Consumption
import KnightLang.Proofs.Console.Flushing
import KnightLang.Proofs.Console.Truncation
import KnightLang.Proofs.Spelling.Reading
import KnightLang.Proofs.Spelling.Acting
import KnightLang.Proofs.Spelling.Stepping
import KnightLang.Proofs.Spelling.Running
import KnightLang.Proofs.Strings.Splicing
import KnightLang.Proofs.Strings.Taking
import KnightLang.Proofs.Strings.Repeating
import KnightLang.Proofs.Lockstep.Growing
import KnightLang.Proofs.Execution.Footprint
import KnightLang.Proofs.Console.Sparing
import KnightLang.Proofs.Console.Lines
import KnightLang.Proofs.Console.Prompting
import KnightLang.Proofs.Console.Preceding
import KnightLang.Proofs.Interactive.Idle
import KnightLang.Proofs.Interactive.Lines
import KnightLang.Proofs.Strings.Editing
import KnightLang.Proofs.Lockstep.Owning
import KnightLang.Proofs.Execution.Sources
import KnightLang.Proofs.Arithmetic.Numerals
import KnightLang.Proofs.Arithmetic.Powers
import KnightLang.Proofs.Strings.Numbers
import KnightLang.Proofs.Strings.Comparing
import KnightLang.Proofs.Execution.Meaning
import KnightLang.Proofs.Execution.Equivalence
import KnightLang.Proofs.Arithmetic.Integers
import KnightLang.Proofs.Lexing.Advancing
import KnightLang.Proofs.Grammar.Locating
import KnightLang.Proofs.Guarding.Acquiring
import KnightLang.Proofs.Guarding.Strategies
import KnightLang.Proofs.Strings.Counting
import KnightLang.Proofs.Strings.Alongside
import KnightLang.Proofs.Strings.Warming
