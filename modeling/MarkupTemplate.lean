import MarkupTemplate.Command.Compile
import MarkupTemplate.Command.Trial
import MarkupTemplate.Main
import MarkupTemplate.Node.Arena
import MarkupTemplate.Proofs.ArrowLoops
import MarkupTemplate.Proofs.AssetOrder
import MarkupTemplate.Proofs.BlockCapture
import MarkupTemplate.Proofs.CheckedBlocks
import MarkupTemplate.Proofs.CleanBoundary
import MarkupTemplate.Proofs.CodeCheck
import MarkupTemplate.Proofs.CodeContext
import MarkupTemplate.Proofs.CodeGap
import MarkupTemplate.Proofs.CodeParts
import MarkupTemplate.Proofs.CompiledText
import MarkupTemplate.Proofs.CutShort
import MarkupTemplate.Proofs.DeepSamples
import MarkupTemplate.Proofs.DigitRuns
import MarkupTemplate.Proofs.DocumentOrder
import MarkupTemplate.Proofs.Draws
import MarkupTemplate.Proofs.EscapeCall
import MarkupTemplate.Proofs.Event
import MarkupTemplate.Proofs.Failures
import MarkupTemplate.Proofs.FileEncoding
import MarkupTemplate.Proofs.HiddenCall
import MarkupTemplate.Proofs.HostOpening
import MarkupTemplate.Proofs.InjectedPage
import MarkupTemplate.Proofs.InjectionPlace
import MarkupTemplate.Proofs.Interpolation
import MarkupTemplate.Proofs.Linearization
import MarkupTemplate.Proofs.LinkedBuilder
import MarkupTemplate.Proofs.LiteralContents
import MarkupTemplate.Proofs.LoadOrder
import MarkupTemplate.Proofs.LoopCheck
import MarkupTemplate.Proofs.LoopNotations
import MarkupTemplate.Proofs.Nesting
import MarkupTemplate.Proofs.Observers
import MarkupTemplate.Proofs.OpenPath
import MarkupTemplate.Proofs.Outcome
import MarkupTemplate.Proofs.OutputCharacters
import MarkupTemplate.Proofs.Ownership
import MarkupTemplate.Proofs.Partition
import MarkupTemplate.Proofs.PlainMarkup
import MarkupTemplate.Proofs.PrivateComments
import MarkupTemplate.Proofs.QuotedValue
import MarkupTemplate.Proofs.RawTextElements
import MarkupTemplate.Proofs.RawTextEnd
import MarkupTemplate.Proofs.RegularTag
import MarkupTemplate.Proofs.Rendering
import MarkupTemplate.Proofs.Reprint
import MarkupTemplate.Proofs.SampleDigits
import MarkupTemplate.Proofs.ScanContext
import MarkupTemplate.Proofs.ScanPrefix
import MarkupTemplate.Proofs.ShapePreservation
import MarkupTemplate.Proofs.SourceParts
import MarkupTemplate.Proofs.StackDepth
import MarkupTemplate.Proofs.TagDiagnostics
import MarkupTemplate.Proofs.TagMarkup
import MarkupTemplate.Proofs.TidyPage
import MarkupTemplate.Proofs.TokenForm
import MarkupTemplate.Proofs.Trials
import MarkupTemplate.Proofs.UnbrokenBlocks
import MarkupTemplate.Proofs.WholeFiles
