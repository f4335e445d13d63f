import GoModules.CommandLine.Run
import GoModules.Config.Reader
import GoModules.Disk.ImportPath
import GoModules.Disk.Snapshot
import GoModules.Disk.Source
import GoModules.FilePath.Clean
import GoModules.FileTree.Edit
import GoModules.Json.Manifest
import GoModules.Main
import GoModules.Proofs.Manifest.Combine
import GoModules.Proofs.ModulePath.Agreement
import GoModules.Proofs.Outcome
import GoModules.Proofs.Version.Canonical
import GoModules.Proofs.Version.Release
import GoModules.Proofs.Manifest.Declares
import GoModules.Proofs.Manifest.Run
import GoModules.Proofs.Manifest.WellFormed
import GoModules.Proofs.Disk.LongestCover
import GoModules.Proofs.ModulePath.CacheName
import GoModules.Proofs.Manifest.Scan
import GoModules.Proofs.Manifest.Segmentation
import GoModules.Proofs.Manifest.Shift
import GoModules.Proofs.Text.Utf8
import GoModules.Proofs.Manifest.Append
import GoModules.Proofs.FilePath.Within
import GoModules.Proofs.Disk.Redirect
import GoModules.Proofs.Disk.Containment
import GoModules.Proofs.Disk.SameRequirements
import GoModules.Proofs.Text.Trim
import GoModules.Proofs.Manifest.Comment
import GoModules.Proofs.Manifest.Spelling
import GoModules.Proofs.Manifest.Statement
import GoModules.Proofs.Manifest.Entry
import GoModules.Proofs.Manifest.Written
import GoModules.Proofs.FilePath.Location
import GoModules.Proofs.Disk.Nearest
import GoModules.Proofs.ModulePath.VersionName
import GoModules.Proofs.Disk.Replacement
import GoModules.Proofs.FileTree.Walk
import GoModules.Proofs.FileTree.Stat
import GoModules.Proofs.FileTree.Edit
import GoModules.Proofs.Disk.ImportPath
import GoModules.Proofs.Disk.ModuleRoot
import GoModules.Proofs.Manifest.Reading
import GoModules.Proofs.Manifest.FirstFault
import GoModules.Proofs.Manifest.LineFault
import GoModules.Proofs.Manifest.RequiredPath
import GoModules.Proofs.Manifest.PhysicalLines
import GoModules.Proofs.Manifest.Block
import GoModules.Proofs.Manifest.GluedComment
import GoModules.Proofs.Manifest.LineEnding
import GoModules.Proofs.Version.Grammar
import GoModules.Proofs.Manifest.Behind
import GoModules.Proofs.Manifest.InertComment
import GoModules.Proofs.Manifest.Arguments
import GoModules.Proofs.Manifest.Respelling
import GoModules.Proofs.FilePath.Reduction
import GoModules.Proofs.ModulePath.Accepted
import GoModules.Proofs.ModulePath.MajorSuffix
import GoModules.Proofs.ModulePath.SafeName
import GoModules.Proofs.Manifest.Rows
import GoModules.Proofs.Manifest.Deprecation
import GoModules.Proofs.Offset.Arguments
import GoModules.Proofs.Offset.Lines
import GoModules.Proofs.Offset.Reading
