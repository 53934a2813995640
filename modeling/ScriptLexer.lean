import ScriptLexer.Dump.Golden
import ScriptLexer.Main
import ScriptLexer.Proofs.Concatenation
import ScriptLexer.Proofs.Coverage
import ScriptLexer.Proofs.MaximalMunch
import ScriptLexer.Proofs.Rescan
import ScriptLexer.Proofs.Decoding
import ScriptLexer.Proofs.Pulling
import ScriptLexer.Proofs.LineNumbers
import ScriptLexer.Proofs.NumberText
import ScriptLexer.Proofs.Faithful
import ScriptLexer.Proofs.Ending
import ScriptLexer.Proofs.OpenString
import ScriptLexer.Proofs.Blanking
import ScriptLexer.Proofs.Walker
import ScriptLexer.Proofs.WalkerSteps
import ScriptLexer.Proofs.WalkerRuns
import ScriptLexer.Proofs.Reporting
import ScriptLexer.Proofs.ScriptRuns
import ScriptLexer.Proofs.PromptRuns
import ScriptLexer.Proofs.DataLines
import ScriptLexer.Proofs.Lookahead
import ScriptLexer.Proofs.FilesLeft
import ScriptLexer.Proofs.GivenTokens
import ScriptLexer.Proofs.ShortestDecimals
import ScriptLexer.Proofs.PrintedNumbers
import ScriptLexer.Proofs.NumberColumns
import ScriptLexer.Proofs.LineEndings
import ScriptLexer.Proofs.SettingsChoice
import ScriptLexer.Proofs.SettingsShapes
import ScriptLexer.Proofs.SettingsTexts
import ScriptLexer.Proofs.SpanEnds
import ScriptLexer.Proofs.WidePositions
import ScriptLexer.Proofs.CommentWalk
