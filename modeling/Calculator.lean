import Calculator.Main
import Calculator.Proofs.Display.Typing
import Calculator.Proofs.Evaluation.Angle
import Calculator.Proofs.Evaluation.Journal
import Calculator.Proofs.Key.LastNumber
import Calculator.Proofs.Rpn.Acceptance
import Calculator.Proofs.Rpn.Conservation
import Calculator.Proofs.Rpn.Failure
import Calculator.Proofs.Rpn.Parentheses
import Calculator.Proofs.Token.Blanks
import Calculator.Window
import Calculator.Proofs.Rpn.Layers
import Calculator.Proofs.Session.Refusal
import Calculator.Proofs.Rpn.Line
import Calculator.Proofs.Display.Digits
import Calculator.Proofs.Key.Offset
