import TextTemplate.Diagnostic
import TextTemplate.Generator
import TextTemplate.Pattern.Grammar
import TextTemplate.Pattern.Writer
import TextTemplate.Random.Trace
import TextTemplate.Render.Exchange
import TextTemplate.Render.Language
import TextTemplate.Run
import TextTemplate.Text.Cursor
import TextTemplate.Proofs.Pattern.Locality
import TextTemplate.Proofs.Pattern.NormalForm
import TextTemplate.Proofs.Pattern.RoundTrip
import TextTemplate.Proofs.Pattern.WiderLimits
import TextTemplate.Proofs.Render.Consumption
import TextTemplate.Proofs.Render.Exchanges
import TextTemplate.Proofs.Render.Texts
import TextTemplate.Proofs.Count.Arrangements
import TextTemplate.Proofs.Count.Questions
import TextTemplate.Proofs.Count.Renderings
import TextTemplate.Proofs.Count.Strings
import TextTemplate.Proofs.Count.Traces
import TextTemplate.Proofs.Batch.Related
import TextTemplate.Proofs.Batch.Streams
import TextTemplate.Proofs.Batch.Texts
import TextTemplate.Proofs.Run.Consumption
import TextTemplate.Proofs.Tree.Height
import TextTemplate.Proofs.Json.Trees
import TextTemplate.Proofs.Safety.Batches
import TextTemplate.Proofs.Batch.Sets
import TextTemplate.Proofs.Random.Providers
import TextTemplate.Proofs.Random.Seeded
import TextTemplate.Proofs.Batch.Shortage
import TextTemplate.Proofs.Render.Names
import TextTemplate.Proofs.Pattern.Concatenation
import TextTemplate.Proofs.Pattern.Grouping
import TextTemplate.Proofs.Count.Overflow
import TextTemplate.Proofs.Count.Samples
import TextTemplate.Proofs.Count.Shapes
import TextTemplate.Proofs.Random.Unbiased
import TextTemplate.Proofs.Pattern.Escapes
import TextTemplate.Proofs.Text.Excerpts
import TextTemplate.Proofs.Pattern.Intervals
import TextTemplate.Proofs.Random.Integers
import TextTemplate.Proofs.Run.Silence
import TextTemplate.Proofs.Tree.Weight
import TextTemplate.Proofs.Text.Quoted
import TextTemplate.Proofs.Outline.Lines
import TextTemplate.Proofs.Outline.Trees
import TextTemplate.Pattern.Assembly
import TextTemplate.Pattern.Scanner
import TextTemplate.Proofs.Pattern.Assembly
import TextTemplate.Proofs.Scanner.Contract
