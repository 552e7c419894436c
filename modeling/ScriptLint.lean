import ScriptLint.Main
import ScriptLint.LogSettings
import ScriptLint.Proofs.Ancestors
import ScriptLint.Proofs.CallTypes
import ScriptLint.Proofs.Casts
import ScriptLint.Proofs.Classes
import ScriptLint.Proofs.CommentEnds
import ScriptLint.Proofs.Constants
import ScriptLint.Proofs.Constructors
import ScriptLint.Proofs.Fields
import ScriptLint.Proofs.FullNames
import ScriptLint.Proofs.Identities
import ScriptLint.Proofs.Inheritance
import ScriptLint.Proofs.Legacy
import ScriptLint.Proofs.Lines
import ScriptLint.Proofs.Natives
import ScriptLint.Proofs.OwnMembers
import ScriptLint.Proofs.Parentheses
import ScriptLint.Proofs.Parse.Accepted
import ScriptLint.Proofs.Parse.Balance
import ScriptLint.Proofs.Parse.Coupled
import ScriptLint.Proofs.Parse.Derivation
import ScriptLint.Proofs.Parse.Documentation
import ScriptLint.Proofs.Parse.Enclosure
import ScriptLint.Proofs.Parse.Identifiers
import ScriptLint.Proofs.Parse.Origins
import ScriptLint.Proofs.Parse.Precedence
import ScriptLint.Proofs.Parse.Progress
import ScriptLint.Proofs.Parse.RoundTrip
import ScriptLint.Proofs.Parse.Semicolons
import ScriptLint.Proofs.Parse.Spacing
import ScriptLint.Proofs.Parse.Spans
import ScriptLint.Proofs.Parse.Trace
import ScriptLint.Proofs.QualifiedNames
import ScriptLint.Proofs.Relining
import ScriptLint.Proofs.ReportLines
import ScriptLint.Proofs.ReturnTypes
import ScriptLint.Proofs.Returns
import ScriptLint.Proofs.Silence
import ScriptLint.Proofs.SourceWalk
import ScriptLint.Proofs.Suppression
import ScriptLint.Proofs.Syntax.Preorder
import ScriptLint.Proofs.TagSearch
import ScriptLint.Proofs.Text.LineTables
import ScriptLint.Proofs.Token.Escapes
import ScriptLint.Proofs.Token.Facts
import ScriptLint.Proofs.Token.LineBreaks
import ScriptLint.Proofs.Token.Locality
import ScriptLint.Proofs.Token.Printing
import ScriptLint.Proofs.Token.Regexes
import ScriptLint.Proofs.Undecodable
