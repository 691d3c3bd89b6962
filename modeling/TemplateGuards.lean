import TemplateGuards.Main
import TemplateGuards.Proofs.Admission
import TemplateGuards.Proofs.BlockGrammar
import TemplateGuards.Proofs.Parenthesis
import TemplateGuards.Proofs.Sighting
import TemplateGuards.Proofs.Consumption
import TemplateGuards.Proofs.Splice
import TemplateGuards.Proofs.Expression
import TemplateGuards.Proofs.Template
import TemplateGuards.Proofs.Unmatched
import TemplateGuards.Proofs.NestingPolicy
import TemplateGuards.Proofs.ParenthesisDepth
import TemplateGuards.Proofs.EnforcerCall
import TemplateGuards.Proofs.FirstFault
import TemplateGuards.Proofs.Relocation
import TemplateGuards.Proofs.Concatenation
import TemplateGuards.Proofs.Places
import TemplateGuards.Proofs.Segments
import TemplateGuards.Proofs.Following
import TemplateGuards.Proofs.Writing
import TemplateGuards.Proofs.Delivery
import TemplateGuards.Proofs.ReportNames
import TemplateGuards.Proofs.Emission
import TemplateGuards.Proofs.GivenPaths
import TemplateGuards.Proofs.FreshDirectory
import TemplateGuards.Proofs.Bases
import TemplateGuards.Proofs.Inheritance
import TemplateGuards.Proofs.CircularBases
import TemplateGuards.Proofs.Listing
import TemplateGuards.Proofs.PathReports
import TemplateGuards.Proofs.ContentReport
import TemplateGuards.Proofs.Deeds
import TemplateGuards.Proofs.ExitCode
import TemplateGuards.Proofs.Races
import TemplateGuards.Proofs.DryRun
import TemplateGuards.Proofs.Pieces
import TemplateGuards.Proofs.Respacing
import TemplateGuards.Proofs.Spacing
import TemplateGuards.Proofs.DiagnosticPositions
import TemplateGuards.Proofs.Substitution
import TemplateGuards.Proofs.Separation
import TemplateGuards.Proofs.SameReading
import TemplateGuards.Proofs.Escaping
import TemplateGuards.Proofs.RegexSearch
import TemplateGuards.Proofs.PathPatterns
import TemplateGuards.Proofs.Components
import TemplateGuards.Proofs.Containment
import TemplateGuards.Proofs.Collisions
import TemplateGuards.Proofs.Overriding
import TemplateGuards.Proofs.Settings
import TemplateGuards.Proofs.JoinedChains
import TemplateGuards.Proofs.DiagnosticOrder
import TemplateGuards.Proofs.Colours
import TemplateGuards.Proofs.MachineReport
import TemplateGuards.Proofs.LinePositions
import TemplateGuards.Proofs.ClosingOffset
import TemplateGuards.Proofs.Counts
