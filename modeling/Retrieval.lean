import Retrieval.Main
import Retrieval.Query.Node
import Retrieval.Proofs.Arithmetic
import Retrieval.Proofs.BooleanSearch
import Retrieval.Proofs.Comparison
import Retrieval.Proofs.Corpus.Blocks
import Retrieval.Proofs.Corpus.Bodies
import Retrieval.Proofs.Corpus.Concatenation
import Retrieval.Proofs.Corpus.Defects
import Retrieval.Proofs.Corpus.Documents
import Retrieval.Proofs.Corpus.Readers
import Retrieval.Proofs.Corpus.Writing
import Retrieval.Proofs.Disjunction
import Retrieval.Proofs.DocumentScores
import Retrieval.Proofs.ExactArithmetic
import Retrieval.Proofs.Gzip.Bits
import Retrieval.Proofs.Gzip.Packing
import Retrieval.Proofs.Index.Artifact
import Retrieval.Proofs.Index.Built
import Retrieval.Proofs.Index.Contents
import Retrieval.Proofs.Index.Documents
import Retrieval.Proofs.Index.TermOrder
import Retrieval.Proofs.Json.Keys
import Retrieval.Proofs.Json.Number
import Retrieval.Proofs.Json.RoundTrip
import Retrieval.Proofs.Json.Text
import Retrieval.Proofs.Json.Within
import Retrieval.Proofs.LifeCycle
import Retrieval.Proofs.Merge
import Retrieval.Proofs.Numeral.Digits
import Retrieval.Proofs.Numeral.Encoding
import Retrieval.Proofs.Numeral.Rounding
import Retrieval.Proofs.Numeral.Shortest
import Retrieval.Proofs.Persistence
import Retrieval.Proofs.Query.Denotation
import Retrieval.Proofs.Query.Evaluation
import Retrieval.Proofs.Query.Grammar
import Retrieval.Proofs.Query.MalformedTrees
import Retrieval.Proofs.Query.Parsing
import Retrieval.Proofs.Query.Tokens
import Retrieval.Proofs.Query.WrongToken
import Retrieval.Proofs.RankedSearch
import Retrieval.Proofs.Ranking
import Retrieval.Proofs.Sorting
import Retrieval.Proofs.Steps
import Retrieval.Proofs.StopWords
import Retrieval.Proofs.Table
import Retrieval.Proofs.Text.Runs
import Retrieval.Proofs.Command.Opening
import Retrieval.Proofs.Command.BooleanQueries
import Retrieval.Proofs.Command.Evaluation
import Retrieval.Proofs.Files
import Retrieval.Proofs.Command.Building
import Retrieval.Proofs.Command.StoredStopWords
import Retrieval.Proofs.Command.AllOrNothing
import Retrieval.Proofs.Numeral.Literal
import Retrieval.Proofs.Index.Norms
import Retrieval.Proofs.Corpus.Judgments
import Retrieval.Proofs.Text.MaximalRuns
import Retrieval.Proofs.Text.Lowering
import Retrieval.Proofs.MaximalMunch
import Retrieval.Proofs.SharedTerms
import Retrieval.Proofs.Corpus.Queries
import Retrieval.Proofs.Query.FunctionalForm
import Retrieval.Proofs.Query.TokenPlaces
import Retrieval.Proofs.Query.Spacing
import Retrieval.Proofs.Quality.AveragePrecision
import Retrieval.Proofs.Quality.Extremes
import Retrieval.Proofs.Query.Stack
import Retrieval.Proofs.Settings
import Retrieval.Proofs.Numeral.Order
import Retrieval.Proofs.Quality.Thresholds
import Retrieval.Proofs.Mean
import Retrieval.Proofs.Latency
