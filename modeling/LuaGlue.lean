import LuaGlue.Build.BundleBuild
import LuaGlue.Build.HeaderBuild
import LuaGlue.Bundle
import LuaGlue.Bundle.License
import LuaGlue.Bundle.Resource
import LuaGlue.Bundle.Template
import LuaGlue.Catalog
import LuaGlue.CommandLine
import LuaGlue.CommandLine.Options
import LuaGlue.Config
import LuaGlue.Conversion
import LuaGlue.Declaration
import LuaGlue.Failure
import LuaGlue.FileTree
import LuaGlue.Header
import LuaGlue.Job
import LuaGlue.Json
import LuaGlue.Json.Codec
import LuaGlue.Json.Reader
import LuaGlue.Main
import LuaGlue.Marker
import LuaGlue.Member
import LuaGlue.OrderedMap
import LuaGlue.Path
import LuaGlue.Registration
import LuaGlue.Sha256
import LuaGlue.Text.Blank
import LuaGlue.Text.CString
import LuaGlue.Text.Hex
import LuaGlue.Text.Lines
import LuaGlue.Text.Placeholder
import LuaGlue.Text.Utf8
import LuaGlue.Text.Word
import LuaGlue.Toml
import LuaGlue.Toml.Reader
import LuaGlue.Toml.Scalar
import LuaGlue.Wrapper
import LuaGlue.Proofs.OrderedMap
import LuaGlue.Proofs.Conversion
import LuaGlue.Proofs.Toml
import LuaGlue.Proofs.Config
import LuaGlue.Proofs.Job
import LuaGlue.Proofs.Text.Part
import LuaGlue.Proofs.Text.Placeholder
import LuaGlue.Proofs.Text.Runs
import LuaGlue.Proofs.Text.Lines
import LuaGlue.Proofs.Text.SourceLines
import LuaGlue.Proofs.Text.Digits
import LuaGlue.Proofs.Text.CString
import LuaGlue.Proofs.Text.Utf8
import LuaGlue.Proofs.Text.LineEnds
import LuaGlue.Proofs.Json.Written
import LuaGlue.Proofs.Json.Printed
import LuaGlue.Proofs.Json.Codec
import LuaGlue.Proofs.Bundle.Table
import LuaGlue.Proofs.Bundle.Template
import LuaGlue.Proofs.Bundle.Code
import LuaGlue.Proofs.Bundle.License
import LuaGlue.Proofs.Bundle.LineEnds
import LuaGlue.Proofs.Marker
import LuaGlue.Proofs.FileTree.Change
import LuaGlue.Proofs.FileTree.Rewrite
import LuaGlue.Proofs.FileTree.Alike
import LuaGlue.Proofs.FileTree.Contents
import LuaGlue.Proofs.Header.Emission
import LuaGlue.Proofs.Build.Generation
import LuaGlue.Proofs.Build.Staleness
import LuaGlue.Proofs.Build.Idempotence
import LuaGlue.Proofs.Build.Failure
import LuaGlue.Proofs.Catalog.Log
import LuaGlue.Proofs.Header.Registration
import LuaGlue.Proofs.Header.FunctionNames
import LuaGlue.Proofs.Header.Gaps
import LuaGlue.Proofs.Build.Strict
import LuaGlue.Proofs.CommandLine
import LuaGlue.Proofs.Declaration.Joined
import LuaGlue.Proofs.Declaration.Pattern
import LuaGlue.Proofs.Build.Layout
import LuaGlue.Proofs.Build.OldMarker
import LuaGlue.Proofs.Build.Style
import LuaGlue.Proofs.CommandLine.Bindings
import LuaGlue.Proofs.CommandLine.Parse
import LuaGlue.Proofs.Build.LineEnds
import LuaGlue.Proofs.Header.Marshaling
import LuaGlue.Proofs.Build.Extension
import LuaGlue.Proofs.Bundle.VariableNames
import LuaGlue.Proofs.Declaration.Trailing
import LuaGlue.Proofs.Declaration.Printed
import LuaGlue.Proofs.Bundle.NormalForm
import LuaGlue.Proofs.CommandLine.Options
import LuaGlue.Proofs.Config.Paths
import LuaGlue.Proofs.Conversion.Expansion
