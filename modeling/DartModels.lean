import DartModels.Main
import DartModels.Proofs.ModelImports
import DartModels.Proofs.RepeatedEmission
import DartModels.Proofs.Sessions
import DartModels.Json.Printer
import DartModels.Proofs.TypeAgreement
import DartModels.Proofs.TypeOrigin
import DartModels.Proofs.WrittenModels
import DartModels.Proofs.FirstWay
import DartModels.Proofs.Shadowing
import DartModels.Proofs.RenamedType
import DartModels.Proofs.EditedFile
import DartModels.Proofs.RenamedImport
import DartModels.Proofs.CommentedTypes
import DartModels.Proofs.Ways
import DartModels.Proofs.SharedDirectories
import DartModels.Proofs.IsolatedWrites
import DartModels.Proofs.IsolatedModels
import DartModels.Proofs.WholeTrees
import DartModels.Proofs.FileOutcome
import DartModels.Proofs.SurveyOrder
import DartModels.Proofs.FinishedRuns
import DartModels.Proofs.MissingSources
import DartModels.Proofs.Endings
import DartModels.Proofs.RepeatedModels
import DartModels.Proofs.ClassOutline
import DartModels.Proofs.ChangingFiles
import DartModels.Proofs.DistinctNames
import DartModels.Proofs.SourceDirectory
import DartModels.Proofs.FoundFiles
import DartModels.Proofs.AddedEntries
import DartModels.Proofs.ReachedSources
import DartModels.Proofs.KeptSources
import DartModels.Proofs.RepeatedRuns
import DartModels.Proofs.ReorderedModels
import DartModels.Proofs.SettingsDocument
import DartModels.Proofs.EarlyErrors
import DartModels.Proofs.UnusableOptions
import DartModels.Proofs.ModulePaths
import DartModels.Proofs.SingleParent
import DartModels.Proofs.TypeSpellings
import DartModels.Proofs.ValidModels
import DartModels.Proofs.AbsoluteDirectories
import DartModels.Proofs.AliasedSpecifiers
import DartModels.Proofs.InnerPaths
import DartModels.Proofs.ModelTargets
import DartModels.Proofs.ListedFiles
import DartModels.Proofs.Recasing
import DartModels.Proofs.AcceptedTexts
import DartModels.Proofs.ExpandedTemplates
import DartModels.Proofs.SummaryBox
import DartModels.Proofs.NestedTypes
import DartModels.Proofs.ClassDecorators
import DartModels.Proofs.DiscoveredFiles
