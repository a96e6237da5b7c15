import TagTemplate.Actions
import TagTemplate.Render
import TagTemplate.Template.Source
import TagTemplate.Proofs.Ends
import TagTemplate.Proofs.Evaluation
import TagTemplate.Proofs.Loops
import TagTemplate.Proofs.Scoping
import TagTemplate.Proofs.EnoughRounds
import TagTemplate.Proofs.History
import TagTemplate.Proofs.IterationLimit
import TagTemplate.Proofs.UnboundVariables
import TagTemplate.Proofs.SideBySide
import TagTemplate.Proofs.Matching
import TagTemplate.Proofs.Comparison
import TagTemplate.Proofs.LimitedRuns
import TagTemplate.Proofs.Renaming
import TagTemplate.Proofs.Grammar
import TagTemplate.Proofs.Scanning
import TagTemplate.Proofs.NumberText
import TagTemplate.Proofs.LexicalGrammar
import TagTemplate.Proofs.Canonical
import TagTemplate.Proofs.RoundTrip
import TagTemplate.Proofs.Concatenation
import TagTemplate.Proofs.Counting
import TagTemplate.Proofs.LoopRuns
import TagTemplate.Proofs.IntegralLoops
import TagTemplate.Proofs.PointedEnds
import TagTemplate.Proofs.TemporaryParameters
import TagTemplate.Proofs.BoundedOutput
import TagTemplate.Proofs.StoredParameters
import TagTemplate.Proofs.CountedValues
import TagTemplate.Proofs.StackDepth
import TagTemplate.Proofs.SplitEchoes
import TagTemplate.Proofs.ExactIntegers
import TagTemplate.Proofs.NumericOperands
import TagTemplate.Proofs.NumericOrder
import TagTemplate.Proofs.StoredNumbers
import TagTemplate.Proofs.RoundedSums
import TagTemplate.Proofs.DirectedLoops
import TagTemplate.Proofs.DecimalPatterns
import TagTemplate.Proofs.BlockDepth
import TagTemplate.Proofs.ErrorPlaces
import TagTemplate.Proofs.InertText
import TagTemplate.Proofs.Lockstep
import TagTemplate.Proofs.NamedStacks
import TagTemplate.Proofs.QuotedStrings
import TagTemplate.Proofs.ScannerProgress
import TagTemplate.Proofs.PositionalDoubles
import TagTemplate.Proofs.OutputType
