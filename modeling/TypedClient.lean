import TypedClient.Main
import TypedClient.Probe
import TypedClient.Proofs.OpenApi.ExportedTypes
import TypedClient.Proofs.OpenApi.NamesDeclared
import TypedClient.Proofs.OpenApi.ObjectLike
import TypedClient.Proofs.OpenApi.Soundness
import TypedClient.Proofs.TypeScript.Faithful
import TypedClient.Proofs.GraphQl.Rereading
import TypedClient.Proofs.GraphQl.RoundTrip
import TypedClient.Proofs.OpenApi.SpreadBody
import TypedClient.Proofs.OpenApi.Globals
import TypedClient.Proofs.Runs.FileReferences
import TypedClient.Proofs.Runs.PlainDeclarations
import TypedClient.Proofs.OpenApi.UnusedParts
import TypedClient.Proofs.BalancedPages
import TypedClient.Proofs.Runs.FailedRuns
import TypedClient.Proofs.OpenApi.RequestLayouts
import TypedClient.Proofs.OpenApi.BodyBindings
import TypedClient.Proofs.OpenApi.DegenerateTypes
import TypedClient.Proofs.OpenApi.MergedParameters
import TypedClient.Proofs.TypeScript.BlockLayout
import TypedClient.Proofs.OpenApi.ResponseClasses
import TypedClient.Proofs.OpenApi.UrlMeaning
import TypedClient.Proofs.GraphQl.SplitTypes
import TypedClient.Proofs.GraphQl.CompleteInterfaces
import TypedClient.Proofs.ClientNames
import TypedClient.Proofs.Text.TreeLayout
import TypedClient.Proofs.OpenApi.Visits
import TypedClient.Proofs.Script.StringLiterals
import TypedClient.Proofs.OpenApi.References
