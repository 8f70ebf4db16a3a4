import RiskRules.Catalog
import RiskRules.Catalog.Document
import RiskRules.CommandLine.Run
import RiskRules.CommandLine.Usage
import RiskRules.Compilation
import RiskRules.Compilation.Files
import RiskRules.Curated
import RiskRules.Decimal.Notation
import RiskRules.Decimal.Shortest
import RiskRules.Digest.Sha256
import RiskRules.Emission
import RiskRules.Enumeration
import RiskRules.Files
import RiskRules.Json.Error
import RiskRules.Json.Number
import RiskRules.Json.Outline
import RiskRules.Json.Printer
import RiskRules.Json.Reading
import RiskRules.Json.Token
import RiskRules.Json.Value
import RiskRules.Lint
import RiskRules.Main
import RiskRules.Model
import RiskRules.Normalization
import RiskRules.Pack
import RiskRules.Pattern
import RiskRules.Proofs.Catalog.Acceptance
import RiskRules.Proofs.Catalog.Declaration
import RiskRules.Proofs.Catalog.Query
import RiskRules.Proofs.Catalog.Truncation
import RiskRules.Proofs.Catalog.Writing
import RiskRules.Proofs.CommandLine
import RiskRules.Proofs.Compilation
import RiskRules.Proofs.Compilation.Blocking
import RiskRules.Proofs.Compilation.EngineVersion
import RiskRules.Proofs.Compilation.Files
import RiskRules.Proofs.Compilation.Outcome
import RiskRules.Proofs.Compilation.Policy
import RiskRules.Proofs.Emission
import RiskRules.Proofs.Files.Contents
import RiskRules.Proofs.Files.Writing
import RiskRules.Proofs.Findings
import RiskRules.Proofs.Json.Canonical
import RiskRules.Proofs.Json.Document
import RiskRules.Proofs.Json.Impartial
import RiskRules.Proofs.Json.Lexicon
import RiskRules.Proofs.Json.MemberOrder
import RiskRules.Proofs.Json.Nesting
import RiskRules.Proofs.Json.NormalForm
import RiskRules.Proofs.Json.Numeral
import RiskRules.Proofs.Json.Partial
import RiskRules.Proofs.Json.Reading
import RiskRules.Proofs.Json.Rearrangement
import RiskRules.Proofs.Json.Record
import RiskRules.Proofs.Json.Respelling
import RiskRules.Proofs.Json.Spelling
import RiskRules.Proofs.Json.Writing
import RiskRules.Proofs.Lint
import RiskRules.Proofs.Lint.Collisions
import RiskRules.Proofs.Lint.Disabling
import RiskRules.Proofs.Lint.Lookalikes
import RiskRules.Proofs.Lint.Overrides
import RiskRules.Proofs.Model.Insertion
import RiskRules.Proofs.Normalization
import RiskRules.Proofs.Normalization.Extension
import RiskRules.Proofs.Normalization.Positions
import RiskRules.Proofs.Pack.Commitment
import RiskRules.Proofs.Pack.Emission
import RiskRules.Proofs.Pack.Liveness
import RiskRules.Proofs.Pack.Loading
import RiskRules.Proofs.Pack.Reformatting
import RiskRules.Proofs.Pack.Registry
import RiskRules.Proofs.Pack.RoundTrip
import RiskRules.Proofs.Pattern
import RiskRules.Proofs.Pattern.Component
import RiskRules.Proofs.Pattern.Dependence
import RiskRules.Proofs.Pattern.Grammar
import RiskRules.Proofs.Pattern.Segments
import RiskRules.Proofs.Rule.Canonical
import RiskRules.Proofs.Rule.Encoding
import RiskRules.Proofs.Rule.Rearrangement
import RiskRules.Proofs.Rule.Reporting
import RiskRules.Proofs.Rule.SyntheticId
import RiskRules.Proofs.Rule.Tagging
import RiskRules.Proofs.Tags
import RiskRules.Proofs.Template.Overlay
import RiskRules.Proofs.Text.Bytes
import RiskRules.Proofs.Text.Utf8
import RiskRules.Proofs.Version.Grammar
import RiskRules.Proofs.Xml.Attribute
import RiskRules.Proofs.Xml.Element
import RiskRules.Proofs.Xml.Nesting
import RiskRules.Proofs.Xml.TagContent
import RiskRules.Proofs.Xml.Writing
import RiskRules.Risk
import RiskRules.Rule
import RiskRules.Rule.Encoding
import RiskRules.Rule.Mitigation
import RiskRules.Session
import RiskRules.Tags
import RiskRules.Template
import RiskRules.Template.Encoding
import RiskRules.Text.Bytes
import RiskRules.Text.Casing
import RiskRules.Text.CharClass
import RiskRules.Text.Lowercase
import RiskRules.Text.Quoted
import RiskRules.Text.Rewriting
import RiskRules.Version
import RiskRules.Xml.Attribute
import RiskRules.Xml.Markup
import RiskRules.Xml.Reference
