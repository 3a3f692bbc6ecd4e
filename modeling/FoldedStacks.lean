import FoldedStacks.Artifact.Basic
import FoldedStacks.Artifact.Containers
import FoldedStacks.Artifact.Enrichment
import FoldedStacks.Artifact.Header
import FoldedStacks.Artifact.MetadataTable
import FoldedStacks.Artifact.Metrics
import FoldedStacks.Artifact.Reissue
import FoldedStacks.Binary64.Basic
import FoldedStacks.Binary64.Decimal
import FoldedStacks.Binary64.PowerOfTen
import FoldedStacks.Binary64.Rounding
import FoldedStacks.CommandLine.Request
import FoldedStacks.CommandLine.Run
import FoldedStacks.Count
import FoldedStacks.Entries
import FoldedStacks.Files
import FoldedStacks.Json.Basic
import FoldedStacks.Json.Identity
import FoldedStacks.Json.Literal
import FoldedStacks.Json.Override
import FoldedStacks.Json.Parser
import FoldedStacks.Json.Printer
import FoldedStacks.Json.Quoted
import FoldedStacks.Json.Reader
import FoldedStacks.Json.Record
import FoldedStacks.Json.Typed
import FoldedStacks.Listing.Process
import FoldedStacks.Listing.System
import FoldedStacks.Main
import FoldedStacks.Notice
import FoldedStacks.Pid
import FoldedStacks.Powers
import FoldedStacks.Profile.Basic
import FoldedStacks.Profile.Merge
import FoldedStacks.Proofs.Accumulation
import FoldedStacks.Proofs.ArtifactIndex
import FoldedStacks.Proofs.ArtifactListing
import FoldedStacks.Proofs.ArtifactReadback
import FoldedStacks.Proofs.AttachedSamples
import FoldedStacks.Proofs.ByteOrder
import FoldedStacks.Proofs.CommentLines
import FoldedStacks.Proofs.ContainerListing
import FoldedStacks.Proofs.ControlFree
import FoldedStacks.Proofs.DecimalText
import FoldedStacks.Proofs.DecimalValues
import FoldedStacks.Proofs.DocumentEquality
import FoldedStacks.Proofs.DocumentIdentity
import FoldedStacks.Proofs.DocumentNumbers
import FoldedStacks.Proofs.DoubleArithmetic
import FoldedStacks.Proofs.DoubleScaling
import FoldedStacks.Proofs.Enrichments
import FoldedStacks.Proofs.Entries
import FoldedStacks.Proofs.ExactNumbers
import FoldedStacks.Proofs.ExactRounding
import FoldedStacks.Proofs.FairRounding
import FoldedStacks.Proofs.GatheredSamples
import FoldedStacks.Proofs.HeaderReadback
import FoldedStacks.Proofs.InputOrder
import FoldedStacks.Proofs.IntegerParts
import FoldedStacks.Proofs.JsonReading
import FoldedStacks.Proofs.JsonStrings
import FoldedStacks.Proofs.JsonText
import FoldedStacks.Proofs.Lines
import FoldedStacks.Proofs.ListingAccounts
import FoldedStacks.Proofs.MarkerReports
import FoldedStacks.Proofs.MarkerSearch
import FoldedStacks.Proofs.MergedReadback
import FoldedStacks.Proofs.Merging
import FoldedStacks.Proofs.MetadataNumbering
import FoldedStacks.Proofs.NumberSpellings
import FoldedStacks.Proofs.NumberTexts
import FoldedStacks.Proofs.Numerals
import FoldedStacks.Proofs.OptionFrames
import FoldedStacks.Proofs.OverriddenPaths
import FoldedStacks.Proofs.Overriding
import FoldedStacks.Proofs.ReadDepth
import FoldedStacks.Proofs.ReadableLines
import FoldedStacks.Proofs.RecordReading
import FoldedStacks.Proofs.ReissuedListing
import FoldedStacks.Proofs.ReissuedMetadata
import FoldedStacks.Proofs.RepeatedOverride
import FoldedStacks.Proofs.RepeatedReissue
import FoldedStacks.Proofs.Rounding
import FoldedStacks.Proofs.RoundingOrder
import FoldedStacks.Proofs.SamplelessListings
import FoldedStacks.Proofs.SampleLines
import FoldedStacks.Proofs.ScaledCounts
import FoldedStacks.Proofs.Scaling
import FoldedStacks.Proofs.SharedContainers
import FoldedStacks.Proofs.Totals
import FoldedStacks.Proofs.Volume
import FoldedStacks.Proofs.WrittenIdentity
import FoldedStacks.Proofs.ZeroCounts
import FoldedStacks.Random.ChaCha
import FoldedStacks.Random.Draws
import FoldedStacks.Settings.Config
import FoldedStacks.Settings.ConfigFile
import FoldedStacks.Settings.Options
import FoldedStacks.SortedMap
import FoldedStacks.Stack.Counts
import FoldedStacks.Stack.ErrorMarker
import FoldedStacks.Stack.Scaling
import FoldedStacks.Text.Around
import FoldedStacks.Text.Blank
import FoldedStacks.Text.Combining
import FoldedStacks.Text.Lines
import FoldedStacks.Text.Numeral
import FoldedStacks.Text.Printable
import FoldedStacks.Text.Quoted
import FoldedStacks.Text.Reader
import FoldedStacks.Text.Split
import FoldedStacks.Time.Calendar
import FoldedStacks.Time.Timestamp
import FoldedStacks.Toml.Basic
import FoldedStacks.Toml.Document
import FoldedStacks.Toml.Scalar
