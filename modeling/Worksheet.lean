import Worksheet.Main
import Worksheet.Proofs.Evaluation.Solution
import Worksheet.Proofs.Evaluation.Queries
import Worksheet.Proofs.Evaluation.Recompute
import Worksheet.Proofs.Evaluation.Origin
import Worksheet.Proofs.Formula.Grammar
import Worksheet.Proofs.Formula.Tokens
import Worksheet.Proofs.Formula.Reading
import Worksheet.Proofs.Formula.Postorder
import Worksheet.Proofs.Formula.Fuel
import Worksheet.Proofs.Text.Utf8
import Worksheet.Proofs.Text.Lossy
import Worksheet.Proofs.SheetFile.Line
import Worksheet.Proofs.SheetFile.RoundTrip
import Worksheet.Proofs.Numeral.Finite
import Worksheet.Proofs.Evaluation.Invariants
import Worksheet.Proofs.Disk.Replace
import Worksheet.Proofs.Sheet.Files
import Worksheet.Proofs.Sheet.History
import Worksheet.Proofs.Sheet.Lawful
import Worksheet.Proofs.Evaluation.Locality
import Worksheet.Proofs.Evaluation.Calls
import Worksheet.Proofs.SheetFile.Reload
import Worksheet.Proofs.SheetFile.Alike
import Worksheet.Proofs.CellText.Cut
import Worksheet.Proofs.SheetFile.LastLine
import Worksheet.Proofs.Editor.View
import Worksheet.Proofs.Session.Fold
import Worksheet.Proofs.Evaluation.Termination
import Worksheet.Proofs.Editor.SaveLoad
import Worksheet.Proofs.Evaluation.Pass
import Worksheet.Proofs.Editor.Messages
import Worksheet.Proofs.Session.Messages
import Worksheet.Proofs.Session.Prompting
import Worksheet.Proofs.Checked.Formulas
import Worksheet.Proofs.Checked.Interpretation
import Worksheet.Proofs.Checked.Evaluation
import Worksheet.Proofs.Checked.Commands
import Worksheet.Proofs.Checked.Program
import Worksheet.Proofs.Sheet.Retyped
import Worksheet.Proofs.Session.Ending
import Worksheet.Proofs.Screen.Window
import Worksheet.Proofs.Numeral.Literals
import Worksheet.Proofs.Formula.Labels
import Worksheet.Proofs.Sheet.Modification
import Worksheet.Proofs.Text.Boundary
import Worksheet.Proofs.Text.Runs
import Worksheet.Proofs.Checked.Buffers
import Worksheet.Proofs.Screen.ErrorColour
import Worksheet.Proofs.Editor.StatusLine
import Worksheet.Proofs.Editor.Scrolling
import Worksheet.Proofs.Screen.Columns
import Worksheet.Proofs.SheetFile.Identity
import Worksheet.Proofs.Numeral.Longest
import Worksheet.Proofs.Numeral.Conversion
import Worksheet.Proofs.Checked.Numbers
