import Stencil.Config.Document
import Stencil.Json.Read
import Stencil.Registry
import Stencil.Value.Document
import Stencil.Proofs.Text.Search
import Stencil.Proofs.Template.Reading
import Stencil.Proofs.Template.Trimming
import Stencil.Proofs.Expr.Grammar
import Stencil.Proofs.Expr.Reading
import Stencil.Proofs.Expr.Printing
import Stencil.Proofs.Expr.Spelling
import Stencil.Proofs.Expr.Lexing
import Stencil.Proofs.Expr.RoundTrip
import Stencil.Proofs.Render.Invariant
import Stencil.Proofs.Template.Likeness
import Stencil.Proofs.Render.Coupling
import Stencil.Proofs.Render.Library
import Stencil.Proofs.Render.Warm
import Stencil.Proofs.Engine.Session
import Stencil.Proofs.Engine.EntryPoints
import Stencil.Proofs.Template.Locality
import Stencil.Proofs.Engine.Tracking
import Stencil.Proofs.Engine.Freshness
import Stencil.Proofs.Render.Record
import Stencil.Proofs.Render.Composition
import Stencil.Proofs.Render.Restoration
import Stencil.Proofs.Render.Frames
import Stencil.Proofs.Template.Grammar
import Stencil.Proofs.Template.Blocks
import Stencil.Proofs.Template.Containment
import Stencil.Proofs.Render.Jumps
import Stencil.Proofs.Engine.Jumps
import Stencil.Proofs.Template.Parameters
import Stencil.Proofs.Engine.Origins
import Stencil.Proofs.Template.Definitions
import Stencil.Proofs.Template.Failures
import Stencil.Proofs.Template.Functions
import Stencil.Proofs.Render.Failures
import Stencil.Proofs.Engine.Quotation
import Stencil.Proofs.Render.NullSafety
import Stencil.Proofs.Template.Layout
import Stencil.Proofs.Template.ConstructLines
import Stencil.Proofs.Template.Squeezing
import Stencil.Proofs.Render.Squeezing
import Stencil.Proofs.Engine.Squeezing
import Stencil.Proofs.Engine.Caching
import Stencil.Proofs.Template.LineEndings
import Stencil.Proofs.Render.Correspondence
import Stencil.Proofs.Render.Simulation
import Stencil.Proofs.Render.Completeness
import Stencil.Proofs.Render.Inclusion
import Stencil.Proofs.Engine.Independence
import Stencil.Proofs.Template.Rows
import Stencil.Proofs.Template.Nesting
import Stencil.Proofs.Render.LocalWrites
import Stencil.Proofs.Engine.Sharing
import Stencil.Proofs.Expr.Derivation
import Stencil.Proofs.Expr.Locations
import Stencil.Proofs.Template.Tokens
import Stencil.Proofs.Template.Locations
import Stencil.Proofs.Json.Reading
import Stencil.Proofs.Value.Nesting
import Stencil.Proofs.Value.RoundTrip
import Stencil.Proofs.Source.Memory
import Stencil.Proofs.Expr.Joining
import Stencil.Proofs.Expr.Fallback
import Stencil.Proofs.Render.Buffering
import Stencil.Proofs.Expr.Literals
import Stencil.Proofs.Expr.Dots
import Stencil.Proofs.Value.Separation
import Stencil.Proofs.Expr.Separation
import Stencil.Proofs.Template.Constants
import Stencil.Proofs.Render.Separation
import Stencil.Proofs.Render.Turns
import Stencil.Proofs.Render.Loops
import Stencil.Proofs.Expr.Arithmetic
import Stencil.Proofs.Expr.Chains
import Stencil.Proofs.Value.Ranges
import Stencil.Proofs.Render.Ranges
import Stencil.Proofs.Value.Strings
import Stencil.Proofs.Value.History
import Stencil.Proofs.Render.Maps
import Stencil.Proofs.Engine.PlainText
import Stencil.Proofs.Text.Settling
import Stencil.Proofs.Render.Escaping
import Stencil.Proofs.Value.Equality
import Stencil.Proofs.Value.Offsets
import Stencil.Proofs.Value.Holding
import Stencil.Proofs.Expr.Signs
import Stencil.Proofs.Template.DirectiveNames
