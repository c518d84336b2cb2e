import DiagramText.CommandLine.Files
import DiagramText.Main
import DiagramText.Proofs.ArchitectureLines
import DiagramText.Proofs.Comments
import DiagramText.Proofs.Detection
import DiagramText.Proofs.LineBreaks
import DiagramText.Proofs.Lossless
import DiagramText.Proofs.Recovery
import DiagramText.Proofs.SankeyRecords
import DiagramText.Proofs.SliceValues
import DiagramText.Proofs.SourceOrder
import DiagramText.Proofs.TimelineLines
import DiagramText.Proofs.WellFormed
import DiagramText.Proofs.WrapJoiners
import DiagramText.Proofs.WrapLabels
import DiagramText.Proofs.WrapLines
import DiagramText.Proofs.WrapWhole
import DiagramText.Proofs.WrapEnds
import DiagramText.Proofs.QuotedLabels
import DiagramText.Proofs.WholeNumbers
import DiagramText.Proofs.WrapAgain
import DiagramText.Proofs.WrapSpaces
import DiagramText.Proofs.PacketBlocks
import DiagramText.Proofs.RoundedNumbers
import DiagramText.Proofs.PacketBits
import DiagramText.Proofs.AcceptedLines
import DiagramText.Proofs.PieSections
import DiagramText.Proofs.TimelineLabels
import DiagramText.Proofs.SankeyLines
import DiagramText.Proofs.UnmatchedRuns
import DiagramText.Proofs.OpenStrings
import DiagramText.Proofs.PreambleItems
import DiagramText.Proofs.SegmentsAgree
import DiagramText.Proofs.WordCuts
import DiagramText.Proofs.SankeyNodes
import DiagramText.Proofs.DiagramJson
import DiagramText.Proofs.Descriptions
import DiagramText.Proofs.RuleOrder
import DiagramText.Proofs.SpaceCuts
import DiagramText.Proofs.FreeText
