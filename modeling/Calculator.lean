import Calculator.Main
import Calculator.Proofs.Conversion.ShuntingYard
import Calculator.Proofs.Decimal.DisplayWidth
import Calculator.Proofs.Evaluation.DisplayLength
import Calculator.Proofs.Evaluation.NegatedCall
import Calculator.Proofs.Evaluation.NegatedFactorial
import Calculator.Proofs.Evaluation.Remainder
import Calculator.Proofs.Grammar.Sentence
import Calculator.Proofs.Lexing.FirstFault
import Calculator.Proofs.Lexing.Printing
import Calculator.Proofs.Lexing.Spacing
import Calculator.Proofs.Precedence.Value
import Calculator.Proofs.Session.Layout
import Calculator.Proofs.Session.Limit
import Calculator.Proofs.Session.Log
