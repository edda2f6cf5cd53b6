import Calculator.Completion
import Calculator.Config.Json
import Calculator.Counting
import Calculator.Counting.Words
import Calculator.Main
import Calculator.Proofs.Binary64.Format
import Calculator.Proofs.Evaluation.Program
import Calculator.Proofs.Parser.Height
import Calculator.Proofs.Parser.Cursor
import Calculator.Proofs.Parser.Viable
import Calculator.Proofs.Printer.RoundTrip
import Calculator.Proofs.Token.Exactness
import Calculator.Proofs.LetterCase.Characters
import Calculator.Proofs.LetterCase.Tokens
import Calculator.Proofs.LetterCase.Evaluation
import Calculator.Proofs.LetterCase.Normalization
import Calculator.Proofs.Evaluation.Degrees
import Calculator.Proofs.FrontEnd.Length
import Calculator.Proofs.FrontEnd.Agreement
import Calculator.Proofs.Session.Transcript
import Calculator.Proofs.Config.RoundTrip
import Calculator.Proofs.Completion.Names
import Calculator.Proofs.Binary64.Identification
import Calculator.Proofs.Evaluation.Printed
import Calculator.Proofs.CommandLine.Log
import Calculator.Proofs.Counting.Primality
import Calculator.Proofs.Counting.Divisors
import Calculator.Proofs.Counting.Overflow
import Calculator.Proofs.Counting.Fibonacci
import Calculator.Proofs.Binary64.Approximation
import Calculator.Proofs.Token.Spacing
import Calculator.Proofs.Statistics.Median
import Calculator.Proofs.Statistics.Bounds
import Calculator.Proofs.Tool.Arguments
