import CodeClones.Main
import CodeClones.Proofs.Grouping.Coverage
import CodeClones.Proofs.Grouping.Soundness
import CodeClones.Proofs.Grouping.FixedPoint
import CodeClones.Proofs.Positions
import CodeClones.Proofs.SelfLikeness
import CodeClones.Proofs.Concrete.Ranges
import CodeClones.Proofs.Rewording
import CodeClones.Proofs.Lowering.Constructs
import CodeClones.Proofs.Lowering.Rules
import CodeClones.Proofs.Report.Excerpts
import CodeClones.Proofs.Lowering.Nesting
import CodeClones.Proofs.Files.Components
import CodeClones.Proofs.Files.Names
import CodeClones.Proofs.Prologue
import CodeClones.Proofs.Lowering.Resemblance
import CodeClones.Proofs.Lowering.Simulation
import CodeClones.Proofs.Lowering.Agreement
import CodeClones.Proofs.Concrete.Comments
import CodeClones.Proofs.Lowering.Comments
import CodeClones.Proofs.Grouping.Origins
import CodeClones.Proofs.Grouping.Refinement
import CodeClones.Proofs.Counterparts
import CodeClones.Proofs.Reordering
import CodeClones.Proofs.FunctionModes
import CodeClones.Proofs.Heights
import CodeClones.Proofs.Grouping.Elimination
import CodeClones.Proofs.Grouping.Scan
import CodeClones.Proofs.Collection
import CodeClones.Proofs.Lowering.Levels
import CodeClones.Proofs.Lowering.Cells
import CodeClones.Proofs.Refusals
import CodeClones.Proofs.Text.Escapes
import CodeClones.Proofs.Concrete.Arrangement
import CodeClones.Proofs.Lowering.Onsets
import CodeClones.Proofs.Lowering.OrderedConstructs
import CodeClones.Proofs.Lowering.OrderedRules
import CodeClones.Proofs.SourceOrder
import CodeClones.Proofs.Report.Lines
import CodeClones.Proofs.Text.Spellings
import CodeClones.Proofs.Numeric.Literals
import CodeClones.Proofs.Lowering.Templates
import CodeClones.Proofs.Text.Indentation
import CodeClones.Proofs.Report.Markup
import CodeClones.Proofs.Lowering.Members
import CodeClones.Proofs.Lowering.Chains
import CodeClones.Proofs.FieldContents
