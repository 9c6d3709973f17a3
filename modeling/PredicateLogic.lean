import PredicateLogic.Lookup
import PredicateLogic.Main
import PredicateLogic.Proofs.BlankSeparation
import PredicateLogic.Proofs.ExitCodes
import PredicateLogic.Proofs.IllegalCharacters
import PredicateLogic.Proofs.JudgedTokens
import PredicateLogic.Proofs.KeptAtoms
import PredicateLogic.Proofs.LogThresholds
import PredicateLogic.Proofs.MarkedLeaves
import PredicateLogic.Proofs.NegationLaws
import PredicateLogic.Proofs.NegationVisits
import PredicateLogic.Proofs.NormalizingChain
import PredicateLogic.Proofs.ParserProgress
import PredicateLogic.Proofs.Polarity
import PredicateLogic.Proofs.PrenexMeaning
import PredicateLogic.Proofs.PrintableChains
import PredicateLogic.Proofs.PrintedMeaning
import PredicateLogic.Proofs.QuantifiersAtRest
import PredicateLogic.Proofs.RenamedBinders
import PredicateLogic.Proofs.ScopeBookkeeping
import PredicateLogic.Proofs.SourceRanges
import PredicateLogic.Proofs.SuppliedScope
import PredicateLogic.Proofs.TokenTiling
