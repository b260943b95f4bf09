import InterfaceGuards.Main
import InterfaceGuards.Proofs.Factory.Unit
import InterfaceGuards.Proofs.Recursion.Genuine
import InterfaceGuards.Proofs.Recursion.Noted
import InterfaceGuards.Proofs.TypeExpr.Longest
import InterfaceGuards.Proofs.Unit.Extension
import InterfaceGuards.Synthesis.Session
import InterfaceGuards.Text.Comparison
import InterfaceGuards.Proofs.Path.Place
import InterfaceGuards.Proofs.FileTree.Action
import InterfaceGuards.Proofs.FileTree.Locate
import InterfaceGuards.Proofs.FileTree.Change
import InterfaceGuards.Proofs.Path.Plain
import InterfaceGuards.Proofs.Run.Reset
import InterfaceGuards.Proofs.Run.Output
import InterfaceGuards.Proofs.Run.Manifest
import InterfaceGuards.Proofs.Run.Preview
import InterfaceGuards.Proofs.Run.Failure
import InterfaceGuards.Proofs.TypeExpr.Name
import InterfaceGuards.Proofs.Manifest.Acceptance
import InterfaceGuards.Proofs.Run.Home
import InterfaceGuards.Proofs.Unit.TopLevel
import InterfaceGuards.Proofs.Unit.Permutation
import InterfaceGuards.Proofs.Catalog.Unfolding
import InterfaceGuards.Proofs.Synthesis.Declared
import InterfaceGuards.Proofs.Unit.Writing
import InterfaceGuards.Proofs.Unit.Bracket
import InterfaceGuards.Proofs.Script.Property
import InterfaceGuards.Proofs.Unit.Ending
import InterfaceGuards.Proofs.Unit.Warning
import InterfaceGuards.Proofs.TypeExpr.Literal
import InterfaceGuards.Proofs.Unit.Specifier
import InterfaceGuards.Proofs.Manifest.Member
import InterfaceGuards.Proofs.Unit.Ground
import InterfaceGuards.Proofs.Path.Arrival
import InterfaceGuards.Proofs.Path.Segment
import InterfaceGuards.Proofs.Path.Stem
import InterfaceGuards.Proofs.Run.Count
import InterfaceGuards.Proofs.Unit.Module
import InterfaceGuards.Proofs.Synthesis.Normal
import InterfaceGuards.Proofs.TypeExpr.Offence
import InterfaceGuards.Proofs.Manifest.TypeLabel
import InterfaceGuards.Proofs.Code.Merging
import InterfaceGuards.Proofs.Code.Sharing
import InterfaceGuards.Proofs.Text.Comparison
import InterfaceGuards.Proofs.Run.Selection
import InterfaceGuards.Proofs.Path.Canonical
import InterfaceGuards.Proofs.Synthesis.Restoring
