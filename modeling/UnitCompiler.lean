import UnitCompiler.Image
import UnitCompiler.Main
import UnitCompiler.Proofs.Acceptance
import UnitCompiler.Proofs.Annotation
import UnitCompiler.Proofs.AnnotationRespelling
import UnitCompiler.Proofs.ArgumentCapture
import UnitCompiler.Proofs.ArtifactConfinement
import UnitCompiler.Proofs.BuildOutputs
import UnitCompiler.Proofs.BuiltInTypes
import UnitCompiler.Proofs.CallDispatch
import UnitCompiler.Proofs.CallLinkage
import UnitCompiler.Proofs.DeclarationAssembly
import UnitCompiler.Proofs.DeclarationFindings
import UnitCompiler.Proofs.DeclarationRendering
import UnitCompiler.Proofs.DeclarationWellFormed
import UnitCompiler.Proofs.Derivation
import UnitCompiler.Proofs.DerivationPlacement
import UnitCompiler.Proofs.Dotted
import UnitCompiler.Proofs.Evaluation
import UnitCompiler.Proofs.FileTreeStorage
import UnitCompiler.Proofs.ImageNaming
import UnitCompiler.Proofs.ImageReadable
import UnitCompiler.Proofs.ImageRecovery
import UnitCompiler.Proofs.ImageReencoding
import UnitCompiler.Proofs.ImageRoundTrip
import UnitCompiler.Proofs.InliningPropagation
import UnitCompiler.Proofs.Instances
import UnitCompiler.Proofs.InstructionParts
import UnitCompiler.Proofs.JsonReading
import UnitCompiler.Proofs.JsonSpelling
import UnitCompiler.Proofs.Lexing
import UnitCompiler.Proofs.Lookahead
import UnitCompiler.Proofs.Numerals
import UnitCompiler.Proofs.ParserViability
import UnitCompiler.Proofs.PipelineBarrier
import UnitCompiler.Proofs.PipelineCatalogue
import UnitCompiler.Proofs.PipelineDeadlock
import UnitCompiler.Proofs.PipelineDelivery
import UnitCompiler.Proofs.PipelineDeterminism
import UnitCompiler.Proofs.Printing
import UnitCompiler.Proofs.RegistryJournal
import UnitCompiler.Proofs.Scanning
import UnitCompiler.Proofs.SessionCatalogue
import UnitCompiler.Proofs.SessionLoad
import UnitCompiler.Proofs.SessionOperation
import UnitCompiler.Proofs.SessionProvenance
import UnitCompiler.Proofs.SessionRegistration
import UnitCompiler.Proofs.SessionRest
import UnitCompiler.Proofs.SessionSchedule
import UnitCompiler.Proofs.SessionTiming
import UnitCompiler.Proofs.SessionWaiting
import UnitCompiler.Proofs.SourceInventory
import UnitCompiler.Proofs.SpanExcerpt
import UnitCompiler.Proofs.SpanNesting
import UnitCompiler.Proofs.SpanSites
import UnitCompiler.Proofs.Substitution
import UnitCompiler.Proofs.TableLoad
import UnitCompiler.Proofs.TableQuiescence
import UnitCompiler.Proofs.TableSteps
import UnitCompiler.Proofs.TokenLayout
import UnitCompiler.Proofs.TokenSplicing
import UnitCompiler.Proofs.TokenTiling
import UnitCompiler.Session
