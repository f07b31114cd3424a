import Terminology.Expression.Expansion
import Terminology.Document.Exchange
import Terminology.Resolver.Session
import Terminology.Classification.Result
import Terminology.Settings
import Terminology.Datum
import Terminology.Proofs.Calendar
import Terminology.Proofs.Text.Identifier
import Terminology.Proofs.Double.Text
import Terminology.Proofs.Instant.Survival
import Terminology.Proofs.Document.Tag
import Terminology.Proofs.Document.Layout
import Terminology.Proofs.Document.Content
import Terminology.Proofs.Document.Limits
import Terminology.Proofs.Document.Hardening
import Terminology.Proofs.Document.Description
import Terminology.Proofs.Document.Writing
import Terminology.Proofs.Document.Agreement
import Terminology.Proofs.Document.Spelling
import Terminology.Proofs.Document.Blame
import Terminology.Proofs.Markup.Size
import Terminology.Proofs.Markup.Rendering
import Terminology.Proofs.Markup.Loop
import Terminology.Proofs.Markup.CharacterData
import Terminology.Proofs.Markup.Declaration
import Terminology.Proofs.Expression.Grammar
import Terminology.Proofs.Expression.Composition
import Terminology.Proofs.Expression.Filling
import Terminology.Proofs.Expression.Blame
import Terminology.Proofs.Resolver.History
import Terminology.Proofs.Resolver.Record
import Terminology.Proofs.Resolver.Reads
import Terminology.Proofs.Resolver.Freshness
import Terminology.Proofs.Resolver.Nesting
import Terminology.Proofs.Resolver.Memo
import Terminology.Proofs.Resolver.Batch
import Terminology.Proofs.Resolver.Reverse
import Terminology.Proofs.Resolver.Shared
import Terminology.Proofs.Classification.Partition
import Terminology.Proofs.Classification.Reordering
import Terminology.Proofs.Classification.Blame
import Terminology.Proofs.Classification.Equivalence
