import WorstCase.Main
import WorstCase.Proofs.Evaluation.Enclosure
import WorstCase.Proofs.Formula.Lossless
import WorstCase.Proofs.Formula.Printing
import WorstCase.Proofs.Formula.Splitting
import WorstCase.Proofs.Formula.Assignments
import WorstCase.Proofs.Formula.Respacing
import WorstCase.Proofs.Grammar.WellFormed
import WorstCase.Proofs.Sensitivity.Ranking
import WorstCase.Proofs.Session.Composition
import WorstCase.Proofs.Session.Console
import WorstCase.Proofs.Evaluation.Results
import WorstCase.Proofs.Evaluation.Substitution
import WorstCase.Proofs.Evaluation.Dimensions
import WorstCase.Proofs.Quantity.Temperature
import WorstCase.Proofs.Session.Shifts
import WorstCase.Proofs.Session.Commutation
import WorstCase.Proofs.Quantity.Ordered
import WorstCase.Proofs.Quantity.Network
import WorstCase.Proofs.Session.Overflow
import WorstCase.Proofs.Interval.OneSided
import WorstCase.Proofs.Measure.Inversion
import WorstCase.Proofs.Measure.Tolerance
import WorstCase.Proofs.Quantity.Intermediate
import WorstCase.Proofs.Formula.LongestPrefix
import WorstCase.Proofs.Formula.Numbers
import WorstCase.Proofs.Evaluation.FirstFault
import WorstCase.Proofs.Quantity.Symmetry
import WorstCase.Proofs.Quantity.Positive
import WorstCase.Proofs.Source.Columns
import WorstCase.Proofs.Source.Merging
import WorstCase.Proofs.Session.Markers
import WorstCase.Proofs.Rendering.Value
import WorstCase.Proofs.Formula.MicroSigns
