import MaterialScript.Main
import MaterialScript.Resource.Animation
import MaterialScript.Host.FileTree
import MaterialScript.Proofs.History
import MaterialScript.Proofs.Closing
import MaterialScript.Proofs.Declarations
import MaterialScript.Proofs.Continuation
import MaterialScript.Proofs.Spacing
import MaterialScript.Proofs.Initializers
import MaterialScript.Proofs.Partition
import MaterialScript.Proofs.Outline
import MaterialScript.Proofs.Layout
import MaterialScript.Proofs.Acceptance
import MaterialScript.Proofs.BlockAcceptance
import MaterialScript.Proofs.Completeness
import MaterialScript.Proofs.Skips
import MaterialScript.Proofs.Failure
import MaterialScript.Proofs.Blame
import MaterialScript.Proofs.Registration
import MaterialScript.Proofs.Backends
import MaterialScript.Proofs.Location
import MaterialScript.Proofs.Reachable
import MaterialScript.Proofs.Triples
import MaterialScript.Proofs.Layers
import MaterialScript.Proofs.Points
import MaterialScript.Proofs.InputLayouts
import MaterialScript.Proofs.Stages
import MaterialScript.Proofs.HostVariables
import MaterialScript.Proofs.StringValues
import MaterialScript.Proofs.Assignments
import MaterialScript.Proofs.Differences
import MaterialScript.Proofs.Tandem
import MaterialScript.Proofs.Forks
import MaterialScript.Proofs.Abreast
import MaterialScript.Proofs.KeywordValues
import MaterialScript.Proofs.Definitions
import MaterialScript.Proofs.Nesting
import MaterialScript.Proofs.LineFeeds
import MaterialScript.Proofs.LineBreaks
import MaterialScript.Proofs.StringLiterals
import MaterialScript.Proofs.Numerals
import MaterialScript.Proofs.Discards
import MaterialScript.Proofs.MaterialFields
import MaterialScript.Proofs.TextureFields
import MaterialScript.Proofs.LayerFields
import MaterialScript.Proofs.VertexFields
import MaterialScript.Proofs.Places
import MaterialScript.Proofs.ColorValues
import MaterialScript.Proofs.Excerpts
import MaterialScript.Proofs.StepBound
import MaterialScript.Proofs.MatchingBrace
import MaterialScript.Proofs.Catalogs
import MaterialScript.Proofs.SourceFiles
