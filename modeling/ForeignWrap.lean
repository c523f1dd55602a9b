import ForeignWrap.Declarations
import ForeignWrap.FileTree
import ForeignWrap.Main
import ForeignWrap.Solver.Error
import ForeignWrap.Solver.Kind
import ForeignWrap.Solver.SortKind
import ForeignWrap.Proofs.Directive.Token
import ForeignWrap.Proofs.Text.Cut
import ForeignWrap.Proofs.Directive.Validity
import ForeignWrap.Proofs.Directive.Grammar
import ForeignWrap.Proofs.Generation.Unit
import ForeignWrap.Proofs.Method.Routine
import ForeignWrap.Proofs.Method.Scope
import ForeignWrap.Proofs.Method.Hygiene
import ForeignWrap.Proofs.Method.Run
import ForeignWrap.Proofs.Method.Variadic
import ForeignWrap.Proofs.Directive.Span
import ForeignWrap.Proofs.Directive.Separator
import ForeignWrap.Proofs.Directive.Spacing
import ForeignWrap.Proofs.Generation.Files
import ForeignWrap.Proofs.Method.Failure
import ForeignWrap.Proofs.FileTree
import ForeignWrap.Proofs.CommandLine
import ForeignWrap.Proofs.Directive.Keyword
import ForeignWrap.Proofs.Generation.Failure
import ForeignWrap.Proofs.Method.Retention
import ForeignWrap.Proofs.Text.Quoted
import ForeignWrap.Proofs.Code.Comment
import ForeignWrap.Proofs.Layout.Comment
import ForeignWrap.Proofs.Layout.Documentation
import ForeignWrap.Proofs.Generation.Documentation
import ForeignWrap.Proofs.Directive.Component
import ForeignWrap.Proofs.Method.Equality
import ForeignWrap.Proofs.Method.Call
import ForeignWrap.Proofs.Method.Item
import ForeignWrap.Proofs.Syntax.Use
import ForeignWrap.Proofs.Code.Name
import ForeignWrap.Proofs.Method.Variables
import ForeignWrap.Proofs.Method.Cast
import ForeignWrap.Proofs.Directive.Pasted
import ForeignWrap.Proofs.Method.Equation
import ForeignWrap.Proofs.Generation.Call
import ForeignWrap.Proofs.Directive.Stop
import ForeignWrap.Proofs.Arguments
import ForeignWrap.Proofs.FilePath
import ForeignWrap.Proofs.Method.Reference
