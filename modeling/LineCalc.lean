import LineCalc.Folder
import LineCalc.Main
import LineCalc.Proofs.Completion
import LineCalc.Proofs.Extension
import LineCalc.Proofs.Culprit
import LineCalc.Proofs.Resumption
import LineCalc.Proofs.Feeding
import LineCalc.Descent
import LineCalc.Proofs.Descent
import LineCalc.Proofs.Records
import LineCalc.Proofs.Editing
import LineCalc.Proofs.Layout
import LineCalc.Proofs.Accounting
import LineCalc.Proofs.Framing
import LineCalc.Proofs.Dump
import LineCalc.Proofs.Calls
import LineCalc.Proofs.Nesting
