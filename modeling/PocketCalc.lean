import PocketCalc.Binary64.Basic
import PocketCalc.Binary64.Interchange
import PocketCalc.Binary64.Rounding
import PocketCalc.Decimal.Basic
import PocketCalc.Decimal.Display
import PocketCalc.Decimal.Numeral
import PocketCalc.Decimal.Shortest
import PocketCalc.Dialogue.Command
import PocketCalc.Dialogue.Notice
import PocketCalc.Dialogue.Transcript
import PocketCalc.Expression.Evaluation
import PocketCalc.Expression.Fault
import PocketCalc.Expression.Operator
import PocketCalc.Expression.Postfix
import PocketCalc.Expression.Token
import PocketCalc.Keyboard.Decode
import PocketCalc.Keyboard.Key
import PocketCalc.Main
import PocketCalc.Options.Basic
import PocketCalc.Options.Message
import PocketCalc.Options.Parse
import PocketCalc.Panel.Help
import PocketCalc.Panel.Highlight
import PocketCalc.Panel.Run
import PocketCalc.Panel.State
import PocketCalc.Panel.View
import PocketCalc.Screen.Ansi
import PocketCalc.Screen.Frame
import PocketCalc.Screen.Paragraph
import PocketCalc.Screen.Style
import PocketCalc.Screen.Wrap
import PocketCalc.Session.Action
import PocketCalc.Session.Basic
import PocketCalc.Session.Entry
import PocketCalc.Session.History
import PocketCalc.Text.Basic
import PocketCalc.Text.Blank
import PocketCalc.Text.CharWidth
import PocketCalc.Text.Clip
import PocketCalc.Text.Emoji
import PocketCalc.Text.Ligature
import PocketCalc.Text.Sequel
import PocketCalc.Text.Wide
import PocketCalc.Text.Width
import PocketCalc.Text.ZeroWidth
import PocketCalc.Proofs.Binary64.Integers
import PocketCalc.Proofs.Binary64.Nearest
import PocketCalc.Proofs.Decimal.IntegerText
import PocketCalc.Proofs.Decimal.NumberText
import PocketCalc.Proofs.Decimal.Places
import PocketCalc.Proofs.Decimal.ReadBack
import PocketCalc.Proofs.Expression.Balance
import PocketCalc.Proofs.Expression.Counting
import PocketCalc.Proofs.Expression.Divisors
import PocketCalc.Proofs.Expression.Finiteness
import PocketCalc.Proofs.Expression.Grammar
import PocketCalc.Proofs.Expression.Integers
import PocketCalc.Proofs.Expression.Reduction
import PocketCalc.Proofs.Expression.Trace
import PocketCalc.Proofs.Expression.TreeEvaluation
import PocketCalc.Proofs.Session.EntryShape
import PocketCalc.Proofs.Session.Failure
import PocketCalc.Proofs.Session.Independence
import PocketCalc.Proofs.Session.Log
import PocketCalc.Proofs.Session.Memory
import PocketCalc.Proofs.Session.Outcome
import PocketCalc.Proofs.Session.Records
import PocketCalc.Proofs.Session.Repetition
import PocketCalc.Proofs.Session.Steps
import PocketCalc.Proofs.Session.Typing
import PocketCalc.Proofs.Dialogue.Answers
import PocketCalc.Proofs.Keyboard.FrontEnds
import PocketCalc.Proofs.Dialogue.RecordLines
import PocketCalc.Proofs.Session.Printable
import PocketCalc.Proofs.Panel.Highlight
import PocketCalc.Proofs.Screen.Rows
import PocketCalc.Proofs.Panel.MainScreen
import PocketCalc.Proofs.Panel.HelpKeys
import PocketCalc.Proofs.Panel.Picture
import PocketCalc.Proofs.Panel.HelpScreen
import PocketCalc.Proofs.Panel.Events
import PocketCalc.Proofs.Panel.Runs
import PocketCalc.Proofs.Binary64.Order
import PocketCalc.Proofs.Decimal.FewestPlaces
import PocketCalc.Proofs.Decimal.Beginnings
import PocketCalc.Proofs.Panel.MemoryRow
import PocketCalc.Proofs.Binary64.TiesToEven
import PocketCalc.Proofs.Decimal.Rounding
import PocketCalc.Proofs.Decimal.Accuracy
import PocketCalc.Proofs.Decimal.ResultText
import PocketCalc.Proofs.Binary64.Words
import PocketCalc.Proofs.Session.Recall
import PocketCalc.Proofs.Session.Deleting
import PocketCalc.Proofs.Session.HistoryText
import PocketCalc.Proofs.Text.Clipping
import PocketCalc.Proofs.Expression.Shunting
import PocketCalc.Proofs.Options.Spelling
