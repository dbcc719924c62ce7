import Calculator.Arithmetic
import Calculator.Buffer.Basic
import Calculator.Buffer.Operand
import Calculator.Buffer.Parentheses
import Calculator.Buffer.TrailingToken
import Calculator.Command
import Calculator.CommandLine
import Calculator.Engine
import Calculator.Error
import Calculator.Evaluation
import Calculator.Main
import Calculator.Number.Binary64
import Calculator.Number.Decimal
import Calculator.Number.Literal
import Calculator.Number.Rounding
import Calculator.Number.Shortest
import Calculator.Percent
import Calculator.Product
import Calculator.Proofs.AngleMode
import Calculator.Proofs.Balance
import Calculator.Proofs.Buffer.Keystroke
import Calculator.Proofs.Buffer.LastOperand
import Calculator.Proofs.Buffer.Operand
import Calculator.Proofs.Buffer.Operation
import Calculator.Proofs.Buffer.Points
import Calculator.Proofs.Buffer.Refusal
import Calculator.Proofs.Buffer.SignKey
import Calculator.Proofs.Buffer.TrailingToken
import Calculator.Proofs.Calls
import Calculator.Proofs.Evaluation.Acceptance
import Calculator.Proofs.Evaluation.Accounting
import Calculator.Proofs.Evaluation.Agreement
import Calculator.Proofs.Evaluation.Append
import Calculator.Proofs.Evaluation.Bare
import Calculator.Proofs.Evaluation.Call
import Calculator.Proofs.Evaluation.ErrorKinds
import Calculator.Proofs.Evaluation.Expression
import Calculator.Proofs.Evaluation.Finiteness
import Calculator.Proofs.Evaluation.Fold
import Calculator.Proofs.Evaluation.Group
import Calculator.Proofs.Evaluation.Order
import Calculator.Proofs.Evaluation.Signs
import Calculator.Proofs.Evaluation.Stacks
import Calculator.Proofs.Evaluation.Step
import Calculator.Proofs.Formatting.Canonical
import Calculator.Proofs.Formatting.Rounded
import Calculator.Proofs.Grammar
import Calculator.Proofs.Grouping
import Calculator.Proofs.Insertion
import Calculator.Proofs.LastNumber
import Calculator.Proofs.NegatedResult
import Calculator.Proofs.Number.Decimal
import Calculator.Proofs.Number.Finite
import Calculator.Proofs.Number.Literal
import Calculator.Proofs.Number.Nearest
import Calculator.Proofs.Number.Order
import Calculator.Proofs.Number.Packing
import Calculator.Proofs.Number.Rounding
import Calculator.Proofs.Omission
import Calculator.Proofs.Outcome
import Calculator.Proofs.Percent
import Calculator.Proofs.Product
import Calculator.Proofs.Recalculation
import Calculator.Proofs.Result
import Calculator.Proofs.Run
import Calculator.Proofs.Scan.Append
import Calculator.Proofs.Scan.Coverage
import Calculator.Proofs.Scan.Cut
import Calculator.Proofs.Scan.Digits
import Calculator.Proofs.Scan.Faithful
import Calculator.Proofs.Scan.Group
import Calculator.Proofs.Scan.Parentheses
import Calculator.Proofs.Scan.RoundTrip
import Calculator.Proofs.Scan.Step
import Calculator.Proofs.Session.BasicView
import Calculator.Proofs.Session.Coverage
import Calculator.Proofs.Session.Display
import Calculator.Proofs.Session.OperatorSigns
import Calculator.Proofs.Session.Points
import Calculator.Proofs.Session.Run
import Calculator.Proofs.Settling
import Calculator.Proofs.Shown
import Calculator.Proofs.Subtraction
import Calculator.Proofs.Token
import Calculator.Proofs.Truthful
import Calculator.Proofs.TwiceNegated
import Calculator.Result
import Calculator.Session
import Calculator.Settings
import Calculator.Span
import Calculator.Text.Basic
import Calculator.Text.Printable
import Calculator.Text.Quoted
import Calculator.Token.Basic
import Calculator.Token.Description
import Calculator.Token.Symbol
import Calculator.Proofs.Number.Difference
