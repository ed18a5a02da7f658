import Formula.Expression.Written
import Formula.Main
import Formula.Proofs.Lockstep
import Formula.Proofs.Lockstep.Couplings
import Formula.Proofs.DataIndependence
import Formula.Proofs.Lexical
import Formula.Proofs.Lexical.References
import Formula.Proofs.Steps
import Formula.Proofs.Neighbours
import Formula.Proofs.Completeness
import Formula.Proofs.Soundness
import Formula.Proofs.NestingLimit
import Formula.Proofs.Pairing
import Formula.Proofs.Pairing.Operands
import Formula.Proofs.Pairing.Overlap
import Formula.Proofs.Pairing.Stretches
import Formula.Proofs.FailFast
import Formula.Proofs.Grouping
import Formula.Proofs.ContextMark
import Formula.Proofs.Substitution
import Formula.Proofs.Lockstep.Hosts
import Formula.Proofs.Registers
import Formula.Proofs.History
import Formula.Proofs.Ledger
import Formula.Proofs.Ledger.Store
import Formula.Proofs.Ledger.Warm
import Formula.Proofs.Ledger.Recycling
import Formula.Proofs.Draws.Begun
import Formula.Proofs.Draws
import Formula.Proofs.Likeness
import Formula.Proofs.Likeness.Operands
import Formula.Proofs.Likeness.Blanks
import Formula.Proofs.Likeness.LetterCase
import Formula.Proofs.Draws.Steady
import Formula.Proofs.CommandLine
import Formula.Proofs.Stages
import Formula.Proofs.Stages.Counts
import Formula.Proofs.Stages.Balance
import Formula.Proofs.Stages.Arrival
import Formula.Proofs.Bookkeeping
import Formula.Proofs.Dispatch
import Formula.Proofs.Literals
import Formula.Proofs.Fractions
import Formula.Proofs.Doubles
import Formula.Proofs.Fractions.Divisor
import Formula.Proofs.ErrorPositions
import Formula.Proofs.Resolution
import Formula.Proofs.NamedConstants
import Formula.Proofs.Members
import Formula.Proofs.Stages.Gains
import Formula.Proofs.Stages.Advance
import Formula.Proofs.Termination
import Formula.Proofs.Json.Grammar
import Formula.Proofs.Json.Readers
import Formula.Proofs.Json.Strings
import Formula.Proofs.Json.Numerals
import Formula.Proofs.OptionsText
