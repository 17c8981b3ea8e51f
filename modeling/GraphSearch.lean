import GraphSearch.Main
import GraphSearch.Proofs.Cypher.Name
import GraphSearch.Proofs.Json.Proper
import GraphSearch.Proofs.Json.Numeral
import GraphSearch.Proofs.Json.Reader
import GraphSearch.Proofs.Json.Denoted
import GraphSearch.Proofs.Json.Text
import GraphSearch.Proofs.Criteria.Normal
import GraphSearch.Proofs.Json.Path
import GraphSearch.Proofs.Criteria.NormalForm
import GraphSearch.Proofs.Outline
import GraphSearch.Proofs.Criteria.Reading
import GraphSearch.Proofs.Criteria.Grammar
import GraphSearch.Proofs.Matching.Steps
import GraphSearch.Proofs.Matching.Walk
import GraphSearch.Proofs.Matching.Contributions
import GraphSearch.Proofs.Matching.Arena
import GraphSearch.Proofs.Matching.Inlining
import GraphSearch.Proofs.Matching.Precedence
import GraphSearch.Proofs.Matching.Meaning
import GraphSearch.Proofs.Aggregate.Liveness
import GraphSearch.Proofs.Aggregate.Carrying
import GraphSearch.Proofs.Aggregate.BoundNames
import GraphSearch.Proofs.Aggregate.PostOrder
import GraphSearch.Proofs.Aggregate.Flat
import GraphSearch.Proofs.Aggregate.Validity
import GraphSearch.Proofs.Matching.Binding
import GraphSearch.Proofs.Handover
import GraphSearch.Proofs.Matching.Congruence
import GraphSearch.Proofs.Matching.Endings
import GraphSearch.Proofs.Matching.Negation
import GraphSearch.Proofs.Matching.Validity
import GraphSearch.Proofs.Matching.Subfilters
import GraphSearch.Proofs.Criteria.Blame
import GraphSearch.Proofs.Matching.Blame
import GraphSearch.Proofs.Paging
import GraphSearch.Proofs.Matching.Polarity
import GraphSearch.Proofs.Matching.Monotone
import GraphSearch.Proofs.Matching.Normalizing
import GraphSearch.Proofs.Json.RoundTrip
import GraphSearch.Proofs.Criteria.Records
import GraphSearch.Proofs.Aggregate.Normalizing
import GraphSearch.Proofs.Normalizing
import GraphSearch.Proofs.Matching.Frame
import GraphSearch.Proofs.Matching.Declarations
import GraphSearch.Proofs.Matching.Operations
import GraphSearch.Proofs.Matching.Deferral
import GraphSearch.Proofs.Matching.Alternatives
import GraphSearch.Proofs.Cypher.Scan
import GraphSearch.Proofs.Cypher.Literal
import GraphSearch.Proofs.Cypher.Predicate
import GraphSearch.Proofs.Matching.WellFormed
import GraphSearch.Proofs.Matching.Leaves
import GraphSearch.Proofs.Cypher.Conjuncts
import GraphSearch.Proofs.Criteria.Dates
import GraphSearch.Proofs.Cypher.Similarity
import GraphSearch.Proofs.Cypher.Membership
import GraphSearch.Proofs.Cypher.Instant
import GraphSearch.Proofs.Matching.Labels
import GraphSearch.Proofs.Matching.Patterns
import GraphSearch.Proofs.Aggregate.Reading
import GraphSearch.Proofs.Aggregate.SortKeys
import GraphSearch.Proofs.Requests
import GraphSearch.Proofs.Matching.Levels
import GraphSearch.Proofs.Matching.Origins
import GraphSearch.Proofs.InternalKeys
