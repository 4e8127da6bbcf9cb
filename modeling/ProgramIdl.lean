import ProgramIdl.Address
import ProgramIdl.Annotations
import ProgramIdl.Annotations.Attribute
import ProgramIdl.CommandLine.Options
import ProgramIdl.CommandLine.Run
import ProgramIdl.Declaration.Basic
import ProgramIdl.Declaration.Body
import ProgramIdl.Declaration.Scan
import ProgramIdl.Discriminator
import ProgramIdl.Failure
import ProgramIdl.FileTree.Basic
import ProgramIdl.FileTree.Change
import ProgramIdl.Generate
import ProgramIdl.Glob
import ProgramIdl.Json.Read
import ProgramIdl.Json.Render
import ProgramIdl.Json.Value
import ProgramIdl.Layout.Basic
import ProgramIdl.Layout.Resolve
import ProgramIdl.Literal.Integer
import ProgramIdl.Literal.Quoted
import ProgramIdl.LittleEndian
import ProgramIdl.Main
import ProgramIdl.Manifest
import ProgramIdl.Notice
import ProgramIdl.Output
import ProgramIdl.Path
import ProgramIdl.Pda
import ProgramIdl.Program.AccountSlots
import ProgramIdl.Program.Assemble
import ProgramIdl.Program.Basic
import ProgramIdl.Proofs.Address.Encoding
import ProgramIdl.Proofs.Annotations.Arguments
import ProgramIdl.Proofs.Annotations.Docs
import ProgramIdl.Proofs.Annotations.Printing
import ProgramIdl.Proofs.CommandLine.Idl
import ProgramIdl.Proofs.Declaration.ArrayText
import ProgramIdl.Proofs.Declaration.Leaves
import ProgramIdl.Proofs.Declaration.Names
import ProgramIdl.Proofs.Declaration.Reading
import ProgramIdl.Proofs.Declaration.NamedReceivers
import ProgramIdl.Proofs.Declaration.Receivers
import ProgramIdl.Proofs.Declaration.Scope
import ProgramIdl.Proofs.Declaration.SeedArrays
import ProgramIdl.Proofs.Declaration.SeedText
import ProgramIdl.Proofs.Declaration.Substitution
import ProgramIdl.Proofs.Discriminator
import ProgramIdl.Proofs.FileTree.Change
import ProgramIdl.Proofs.FileTree.Entries
import ProgramIdl.Proofs.Generate
import ProgramIdl.Proofs.Glob
import ProgramIdl.Proofs.Json.RoundTrip
import ProgramIdl.Proofs.Json.Scalars
import ProgramIdl.Proofs.Layout.Culprits
import ProgramIdl.Proofs.Layout.Extension
import ProgramIdl.Proofs.Layout.Lengths
import ProgramIdl.Proofs.Layout.Requests
import ProgramIdl.Proofs.Layout.Resolve
import ProgramIdl.Proofs.Layout.Typing
import ProgramIdl.Proofs.Literal.ByteString
import ProgramIdl.Proofs.Literal.Integer
import ProgramIdl.Proofs.Literal.Spelling
import ProgramIdl.Proofs.LittleEndian
import ProgramIdl.Proofs.Output
import ProgramIdl.Proofs.Pass
import ProgramIdl.Proofs.Pda.ConstantText
import ProgramIdl.Proofs.Pda.Conversions
import ProgramIdl.Proofs.Pda.Extraction
import ProgramIdl.Proofs.Pda.FirstSeed
import ProgramIdl.Proofs.Pda.LiteralSeeds
import ProgramIdl.Proofs.Pda.MacroCalls
import ProgramIdl.Proofs.Program.Address
import ProgramIdl.Proofs.Program.Arguments
import ProgramIdl.Proofs.Program.Arrangement
import ProgramIdl.Proofs.Program.Assembly
import ProgramIdl.Proofs.Program.ByteSeeds
import ProgramIdl.Proofs.Program.ChainChecks
import ProgramIdl.Proofs.Program.CheckNames
import ProgramIdl.Proofs.Program.Consistency
import ProgramIdl.Proofs.Program.DiscriminatorBytes
import ProgramIdl.Proofs.Program.Insertion
import ProgramIdl.Proofs.Program.Instructions
import ProgramIdl.Proofs.Program.Keys
import ProgramIdl.Proofs.Program.Layouts
import ProgramIdl.Proofs.Program.Modules
import ProgramIdl.Proofs.Program.Relaid
import ProgramIdl.Proofs.Program.Sites
import ProgramIdl.Proofs.Program.SlotFacts
import ProgramIdl.Proofs.Program.SlotPdas
import ProgramIdl.Proofs.Program.Sources
import ProgramIdl.Proofs.Program.Unrelated
import ProgramIdl.Proofs.Program.Warnings
import ProgramIdl.Proofs.Program.Widths
import ProgramIdl.Proofs.Scaffold.Generation
import ProgramIdl.Proofs.Scaffold.Keeping
import ProgramIdl.Proofs.Scaffold.Manifest
import ProgramIdl.Proofs.Scaffold.Names
import ProgramIdl.Proofs.Scaffold.Program
import ProgramIdl.Proofs.Scaffold.Template
import ProgramIdl.Proofs.Scaffold.Writing
import ProgramIdl.Proofs.Schema.Interface
import ProgramIdl.Proofs.Schema.Shown
import ProgramIdl.Proofs.Syntax.Agreement
import ProgramIdl.Proofs.Syntax.Agreement.Expression
import ProgramIdl.Proofs.Syntax.Agreement.Grammar
import ProgramIdl.Proofs.Syntax.Agreement.Item
import ProgramIdl.Proofs.Syntax.Agreement.Type
import ProgramIdl.Proofs.Syntax.Chains.Basic
import ProgramIdl.Proofs.Syntax.Chains.Expression
import ProgramIdl.Proofs.Syntax.Chains.Item
import ProgramIdl.Proofs.Syntax.Chains.Reading
import ProgramIdl.Proofs.Syntax.Chains.Roots
import ProgramIdl.Proofs.Syntax.Chains.Type
import ProgramIdl.Proofs.Syntax.Edges
import ProgramIdl.Proofs.Syntax.LikeTokens
import ProgramIdl.Proofs.Syntax.Likeness
import ProgramIdl.Proofs.Syntax.Relaid
import ProgramIdl.Proofs.Syntax.Related
import ProgramIdl.Proofs.Syntax.TokenPlaces
import ProgramIdl.Proofs.Syntax.Yields
import ProgramIdl.Proofs.Text.Compact
import ProgramIdl.Proofs.Text.Fronts
import ProgramIdl.Proofs.Text.NormalForm
import ProgramIdl.Proofs.Text.QualifiedName
import ProgramIdl.Proofs.Text.Segments
import ProgramIdl.Proofs.Text.Trim
import ProgramIdl.Proofs.Text.Utf8
import ProgramIdl.Proofs.Text.Words
import ProgramIdl.Proofs.Toml.Lines
import ProgramIdl.Scaffold
import ProgramIdl.Scaffold.Template
import ProgramIdl.Schema
import ProgramIdl.Seed
import ProgramIdl.Syntax.Grammar
import ProgramIdl.Syntax.Grammar.Expression
import ProgramIdl.Syntax.Grammar.Item
import ProgramIdl.Syntax.Grammar.Type
import ProgramIdl.Syntax.Item
import ProgramIdl.Syntax.Lexeme
import ProgramIdl.Syntax.Parser
import ProgramIdl.Syntax.Tree
import ProgramIdl.Text.Blank
import ProgramIdl.Text.CodePoints
import ProgramIdl.Text.Compact
import ProgramIdl.Text.DecimalDigit
import ProgramIdl.Text.Display
import ProgramIdl.Text.Identifier
import ProgramIdl.Text.Lines
import ProgramIdl.Text.Lowercase
import ProgramIdl.Text.Printable
import ProgramIdl.Text.QualifiedName
import ProgramIdl.Text.Segments
import ProgramIdl.Text.Trim
import ProgramIdl.Text.Utf8
import ProgramIdl.Text.WordChar
import ProgramIdl.Text.Words
import ProgramIdl.Toml.Read
import ProgramIdl.Toml.Scalar
import ProgramIdl.Toml.Value
