import UtilityCss.Check.Basic
import UtilityCss.Cli.Clock
import UtilityCss.Cli.Run
import UtilityCss.Main
import UtilityCss.Manifest.Writer
import UtilityCss.Proofs.Alphabet
import UtilityCss.Proofs.LiteralTable
import UtilityCss.Proofs.Numeral
import UtilityCss.Proofs.Spelling
import UtilityCss.Proofs.Families
import UtilityCss.Proofs.TokenGrammar
import UtilityCss.Proofs.SelectorPatch
import UtilityCss.Proofs.ClassName
import UtilityCss.Proofs.Escaping
import UtilityCss.Proofs.Regroup
import UtilityCss.Proofs.SheetReader
import UtilityCss.Proofs.TokenSetOrder
import UtilityCss.Proofs.CompiledTokens
import UtilityCss.Proofs.TokenAlphabet
import UtilityCss.Proofs.Findings
import UtilityCss.Proofs.CheckExit
import UtilityCss.Proofs.ManifestSheet
import UtilityCss.Proofs.ManifestFailure
import UtilityCss.Proofs.JsonString
import UtilityCss.Proofs.JsonNumber
import UtilityCss.Proofs.JsonRoundTrip
import UtilityCss.Proofs.JsonAscii
import UtilityCss.Proofs.JsonReadable
import UtilityCss.Proofs.SheetAscii
import UtilityCss.Proofs.ManifestEquality
import UtilityCss.Proofs.ManifestRestorable
import UtilityCss.Proofs.ManifestFile
import UtilityCss.Proofs.ManifestRoundTrip
import UtilityCss.Proofs.ManifestFixpoint
import UtilityCss.Proofs.ManifestOffences
import UtilityCss.Proofs.Brackets
import UtilityCss.Proofs.BracketBody
import UtilityCss.Proofs.BlockScanner
import UtilityCss.Proofs.BlockReader
import UtilityCss.Proofs.RuleContainment
import UtilityCss.Proofs.DocumentOrder
import UtilityCss.Proofs.PrefixFix
import UtilityCss.Proofs.Remarks
import UtilityCss.Proofs.TokenSetHistory
import UtilityCss.Proofs.TokenSetAlgebra
import UtilityCss.Proofs.FamilyHeads
import UtilityCss.Proofs.FamiliesApart
import UtilityCss.Proofs.CheckedColor
import UtilityCss.Proofs.CheckedFamilies
import UtilityCss.Proofs.CheckedResolve
import UtilityCss.Proofs.DeclarationPieces
import UtilityCss.Proofs.FreeForms
import UtilityCss.Proofs.FamilyText
import UtilityCss.Proofs.ColorGrammar
import UtilityCss.Proofs.BorderGrammar
import UtilityCss.Proofs.ShortestDecimal
import UtilityCss.Proofs.Rounding
import UtilityCss.Proofs.Percentage
import UtilityCss.Proofs.SpacingGrammar
import UtilityCss.Proofs.SheetLayout
import UtilityCss.Proofs.SheetFailure
import UtilityCss.Proofs.Printing
import UtilityCss.Proofs.Pipeline
