import RobotAnalysis.Emission
import RobotAnalysis.Loading
import RobotAnalysis.Outline
import RobotAnalysis.Proofs.AddedDocuments
import RobotAnalysis.Proofs.CheckedQueries
import RobotAnalysis.Proofs.CompleteReading
import RobotAnalysis.Proofs.CompletedKeywords
import RobotAnalysis.Proofs.ContinuedRows
import RobotAnalysis.Proofs.DistantColumns
import RobotAnalysis.Proofs.DocumentGrammar
import RobotAnalysis.Proofs.DocumentIdentity
import RobotAnalysis.Proofs.FirstLookups
import RobotAnalysis.Proofs.ImportUses
import RobotAnalysis.Proofs.InnermostVariables
import RobotAnalysis.Proofs.KeywordMatching
import RobotAnalysis.Proofs.LineSplitting
import RobotAnalysis.Proofs.LocalVariables
import RobotAnalysis.Proofs.Lossless
import RobotAnalysis.Proofs.NamesInWords
import RobotAnalysis.Proofs.PathWalks
import RobotAnalysis.Proofs.RelativeTargets
import RobotAnalysis.Proofs.ReportedFaults
import RobotAnalysis.Proofs.RespelledCalls
import RobotAnalysis.Proofs.Respelling
import RobotAnalysis.Proofs.SectionIndependence
import RobotAnalysis.Proofs.ShadowedKeywords
import RobotAnalysis.Proofs.TextVersions
import RobotAnalysis.Proofs.TypedCells
import RobotAnalysis.Proofs.TypedLookups
import RobotAnalysis.Proofs.UnusedImport
import RobotAnalysis.Proofs.VariableMatching
import RobotAnalysis.Text.Record
