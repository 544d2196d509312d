import Calculator.CommandLine.Program
import Calculator.Main
import Calculator.Proofs.Arrangement.Occurrences
import Calculator.Proofs.Arrangement.PrecedenceClimbing
import Calculator.Proofs.Arrangement.Unmatched
import Calculator.Proofs.CommandLine.Batch
import Calculator.Proofs.CommandLine.Dialogue
import Calculator.Proofs.CommandLine.Script
import Calculator.Proofs.Display.Denoted
import Calculator.Proofs.Display.Form
import Calculator.Proofs.Display.Literal
import Calculator.Proofs.Evaluation.DoubleNegation
import Calculator.Proofs.Evaluation.Literal
import Calculator.Proofs.Evaluation.Malformed
import Calculator.Proofs.Evaluation.Parenthesized
import Calculator.Proofs.Evaluation.Shortfall
import Calculator.Proofs.Grammar.Evaluation
import Calculator.Proofs.History.Frame
import Calculator.Proofs.History.Table
import Calculator.Proofs.Session.Record
import Calculator.Proofs.Session.Refusal
import Calculator.Proofs.Settings.Check
import Calculator.Proofs.Token.Partition
import Calculator.Session.Step
