import Bantam.Main
import Bantam.TokenStream
import Bantam.Proofs.Hierarchy.Ancestry
import Bantam.Proofs.Hierarchy.Registry
import Bantam.Proofs.Hierarchy.Tree
import Bantam.Proofs.Syntax.Grammar
import Bantam.Proofs.Syntax.Taken
import Bantam.Proofs.Syntax.Leaves
import Bantam.Proofs.Syntax.Scanning
import Bantam.Proofs.Syntax.Beginnings
import Bantam.Proofs.Syntax.Grip
import Bantam.Proofs.Syntax.ExpressionSound
import Bantam.Proofs.Syntax.ExpressionComplete
import Bantam.Proofs.Syntax.ProgramSound
import Bantam.Proofs.Syntax.Rederivation
import Bantam.Proofs.Syntax.ProgramComplete
import Bantam.Proofs.Typing.Rules
import Bantam.Proofs.Typing.Validity
import Bantam.Proofs.Typing.ExpressionSound
import Bantam.Proofs.Typing.ExpressionAdequate
import Bantam.Proofs.Typing.StatementAdequate
import Bantam.Proofs.Typing.MemberAdequate
import Bantam.Proofs.Typing.ClassAdequate
import Bantam.Proofs.Typing.ProgramAdequate
import Bantam.Proofs.Hierarchy.Inheritance
import Bantam.Proofs.Hierarchy.MemberTables
import Bantam.Proofs.Typing.Substitution
import Bantam.Proofs.Typing.Pieces
import Bantam.Proofs.Typing.VoidValues
import Bantam.Proofs.Typing.ReadOnlyNames
import Bantam.Proofs.Typing.ReservedNames
import Bantam.Proofs.Hierarchy.Interface
import Bantam.Proofs.Typing.SeparateChecking
import Bantam.Proofs.Hierarchy.DistinctClasses
import Bantam.Proofs.Hierarchy.Namesakes
import Bantam.Proofs.Hierarchy.Reordering
import Bantam.Proofs.Typing.DeclarationOrder
import Bantam.Proofs.Syntax.Lossless
import Bantam.Proofs.Syntax.Reports
import Bantam.Proofs.Syntax.Marks
import Bantam.Proofs.Typing.KnownTypes
import Bantam.Proofs.Typing.Reanalysis
import Bantam.Proofs.Typing.Annotation
import Bantam.Proofs.Syntax.Relocation
import Bantam.Proofs.Syntax.ExpressionRelocation
import Bantam.Proofs.Syntax.ProgramRelocation
import Bantam.Proofs.Syntax.Layout
import Bantam.Proofs.Syntax.Concatenation
import Bantam.Proofs.Syntax.Extent
import Bantam.Proofs.Hierarchy.DeclaredParents
import Bantam.Proofs.Syntax.Located
import Bantam.Proofs.Syntax.ExpressionLocated
import Bantam.Proofs.Syntax.ProgramLocated
import Bantam.Proofs.Syntax.Bounds
import Bantam.Proofs.Syntax.Places
import Bantam.Proofs.Syntax.OneLine
import Bantam.Proofs.Syntax.ParsedPlaces
import Bantam.Proofs.Typing.ExpressionIssues
import Bantam.Proofs.Typing.ProgramIssues
import Bantam.Proofs.Typing.ValidSpans
import Bantam.Proofs.Driver.Messages
import Bantam.Proofs.Driver.Calls
import Bantam.Proofs.Hierarchy.MemberLookup
import Bantam.Proofs.Hierarchy.MemberBinding
import Bantam.Proofs.Syntax.Lexemes
import Bantam.Proofs.Syntax.StringConstants
import Bantam.Proofs.Hierarchy.Compatibility
import Bantam.Proofs.Syntax.RememberedParentheses
import Bantam.Proofs.Syntax.RememberedPrograms
import Bantam.Proofs.Syntax.AssignmentTargets
import Bantam.Proofs.Syntax.Lookahead
import Bantam.Proofs.Syntax.Printing
import Bantam.Proofs.Syntax.Completion
import Bantam.Proofs.Syntax.ExpressionCompletion
import Bantam.Proofs.Syntax.ProgramCompletion
import Bantam.Proofs.Syntax.EarliestError
import Bantam.Proofs.Syntax.Resumption
import Bantam.Proofs.Syntax.Constants
import Bantam.Proofs.Syntax.Literals
import Bantam.Proofs.Hierarchy.MovedDeclarations
import Bantam.Proofs.Hierarchy.IgnoredClasses
import Bantam.Proofs.Typing.IgnoredDeclarations
import Bantam.Proofs.Typing.Scoping
import Bantam.Proofs.Typing.BodyCheck
import Bantam.Proofs.Syntax.TextLines
import Bantam.Proofs.Driver.TokenListing
import Bantam.Proofs.Hierarchy.OutlineOrder
import Bantam.Proofs.Hierarchy.ScopeGuards
import Bantam.Proofs.Syntax.PendingTokens
import Bantam.Proofs.Syntax.StepwiseParser
import Bantam.Proofs.Syntax.ParsingProgress
import Bantam.Proofs.Syntax.StepwiseExpressions
import Bantam.Proofs.Syntax.StepwisePrograms
import Bantam.Proofs.Syntax.SpanMerging
import Bantam.Proofs.Syntax.StepwiseTexts
