import ComLayout.Main
import ComLayout.Proofs.CommandLine.FlagValues
import ComLayout.Proofs.Discovery.BelowRoot
import ComLayout.Proofs.Discovery.Candidates
import ComLayout.Proofs.Discovery.Directories
import ComLayout.Proofs.Discovery.Filtering
import ComLayout.Proofs.Discovery.Listing
import ComLayout.Proofs.Discovery.Narrowing
import ComLayout.Proofs.Discovery.Recursion
import ComLayout.Proofs.Discovery.Wildcards
import ComLayout.Proofs.Entries
import ComLayout.Proofs.Files.Below
import ComLayout.Proofs.Files.Following
import ComLayout.Proofs.Files.Frame
import ComLayout.Proofs.Files.Spelling
import ComLayout.Proofs.Glob.DoubleStar
import ComLayout.Proofs.Glob.Parts
import ComLayout.Proofs.Glob.Reaching
import ComLayout.Proofs.Header.BaseRespelling
import ComLayout.Proofs.Header.BehindTerminator
import ComLayout.Proofs.Header.ClassicCollecting
import ComLayout.Proofs.Header.ClassicLocating
import ComLayout.Proofs.Header.ClassicRendering
import ComLayout.Proofs.Header.Collecting
import ComLayout.Proofs.Header.DeclarationGrammar
import ComLayout.Proofs.Header.Declared
import ComLayout.Proofs.Header.EveryMethod
import ComLayout.Proofs.Header.FirstDeclaration
import ComLayout.Proofs.Header.Locating
import ComLayout.Proofs.Header.MethodGrammar
import ComLayout.Proofs.Header.NameLine
import ComLayout.Proofs.Header.ReadingBack
import ComLayout.Proofs.Header.Rendering
import ComLayout.Proofs.Header.RespelledHeader
import ComLayout.Proofs.Header.ScanBounds
import ComLayout.Proofs.Header.ScanOutcome
import ComLayout.Proofs.Header.Scanning
import ComLayout.Proofs.Header.Vocabulary
import ComLayout.Proofs.Lookup.Derivation
import ComLayout.Proofs.Lookup.GeneratedRoundTrip
import ComLayout.Proofs.Lookup.Levels
import ComLayout.Proofs.Lookup.Lineage
import ComLayout.Proofs.Lookup.ManyFiles
import ComLayout.Proofs.Lookup.OneFile
import ComLayout.Proofs.Lookup.Outcome
import ComLayout.Proofs.Lookup.RequestWalk
import ComLayout.Proofs.Lookup.RequestedCase
import ComLayout.Proofs.Lookup.RespelledBase
import ComLayout.Proofs.Lookup.RoundTrip
import ComLayout.Proofs.Lookup.Showing
import ComLayout.Proofs.Lookup.SlotTexts
import ComLayout.Proofs.Report.CsvReading
import ComLayout.Proofs.Report.JsonContents
import ComLayout.Proofs.Report.JsonReading
import ComLayout.Proofs.Report.SourceLinks
import ComLayout.Proofs.Report.TableRows
import ComLayout.Proofs.Run.Delivering
import ComLayout.Proofs.Run.ExitCodes
import ComLayout.Proofs.Run.Opening
import ComLayout.Proofs.Run.Reporting
import ComLayout.Proofs.Run.Settling
import ComLayout.Proofs.Run.StatusCalls
import ComLayout.Proofs.Run.Telling
import ComLayout.Proofs.Run.Untouched
import ComLayout.Proofs.Run.WrittenReports
import ComLayout.Proofs.Settings.AlwaysGiven
import ComLayout.Proofs.Settings.EnvironmentLayer
import ComLayout.Proofs.Settings.Places
import ComLayout.Proofs.Settings.Precedence
import ComLayout.Proofs.Settings.SameSection
import ComLayout.Proofs.Settings.TwoSpellings
import ComLayout.Proofs.Settings.WalkOrder
import ComLayout.Proofs.StatusLine.Remnants
import ComLayout.Proofs.Steps
import ComLayout.Proofs.Text.Ascii
import ComLayout.Proofs.Text.Character
import ComLayout.Proofs.Text.Passage
import ComLayout.Proofs.Text.Respelling
import ComLayout.Proofs.Text.Search
import ComLayout.Proofs.Text.Stretch
import ComLayout.Proofs.Text.Trim
import ComLayout.Proofs.Value.LayerLaws
import ComLayout.Proofs.Value.Layering
import ComLayout.Proofs.Vtable.Counting
import ComLayout.Proofs.Text.Tokens
import ComLayout.Proofs.Report.ListingReading
import ComLayout.Proofs.Run.PartialReports
import ComLayout.Proofs.Number.Reading
import ComLayout.Proofs.Settings.EnvironmentValues
