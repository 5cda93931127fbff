import LayoutRebuild.Artifact.Merge
import LayoutRebuild.Build.Finish
import LayoutRebuild.Config.File
import LayoutRebuild.Diagnostic.Json
import LayoutRebuild.Diagnostic.Render
import LayoutRebuild.Diagnostic.Sink
import LayoutRebuild.SampleModule
import LayoutRebuild.Table.Lemmas
import LayoutRebuild.Proofs.Build.Accounting
import LayoutRebuild.Proofs.Build.Classification
import LayoutRebuild.Proofs.Build.CleanBuild
import LayoutRebuild.Proofs.Build.FailedFinish
import LayoutRebuild.Proofs.Build.IdleBuild
import LayoutRebuild.Proofs.Build.LateEdits
import LayoutRebuild.Proofs.Build.OutputNames
import LayoutRebuild.Proofs.Build.Quiescent
import LayoutRebuild.Proofs.Build.UnusableLog
import LayoutRebuild.Proofs.Build.Variants
import LayoutRebuild.Proofs.FileSystem.Remaking
import LayoutRebuild.Proofs.FileSystem.Rooted
import LayoutRebuild.Proofs.Hash.Spelling
import LayoutRebuild.Proofs.Json.Cut
import LayoutRebuild.Proofs.Log.Interrupted
import LayoutRebuild.Proofs.Log.NewerFormat
import LayoutRebuild.Proofs.Log.Rewriting
import LayoutRebuild.Proofs.Artifact.LastWins
import LayoutRebuild.Proofs.Build.Visible
import LayoutRebuild.Proofs.Artifact.Published
import LayoutRebuild.Proofs.Log.Merging
import LayoutRebuild.Proofs.Build.ChangeLists
import LayoutRebuild.Proofs.Descriptor.RoundTrip
import LayoutRebuild.Proofs.Artifact.Reports
import LayoutRebuild.Proofs.Build.Reports
import LayoutRebuild.Proofs.LeastClosure
import LayoutRebuild.Proofs.Diagnostic.Draining
import LayoutRebuild.Proofs.Artifact.OwnArtifact
