import Shelfmark.Service.Call
import Shelfmark.Proofs.Order.Stable
import Shelfmark.Proofs.Order.Doubles
import Shelfmark.Proofs.Index.Documents
import Shelfmark.Proofs.Index.Ranking
import Shelfmark.Proofs.Index.Restoring
import Shelfmark.Proofs.Search.Lookup
import Shelfmark.Proofs.Engine.Paging
import Shelfmark.Proofs.Engine.Upkeep
import Shelfmark.Proofs.Decimal.Digits
import Shelfmark.Proofs.Time.Reading
import Shelfmark.Proofs.Bookmark.Records
import Shelfmark.Proofs.Query.Dropping
import Shelfmark.Proofs.Engine.Refusals
import Shelfmark.Proofs.Query.Grammar
import Shelfmark.Proofs.Decimal.Rounding
import Shelfmark.Proofs.Decimal.Shortest
import Shelfmark.Proofs.Decimal.Parts
import Shelfmark.Proofs.Decimal.Numerals
import Shelfmark.Proofs.Engine.Pairs
import Shelfmark.Proofs.Engine.Usable
import Shelfmark.Proofs.Engine.Quiet
import Shelfmark.Proofs.Engine.Deletions
import Shelfmark.Proofs.Engine.Transparency
import Shelfmark.Proofs.Time.Order
import Shelfmark.Proofs.Similarity.Candidates
import Shelfmark.Proofs.Engine.Candidates
import Shelfmark.Proofs.Engine.Outages
import Shelfmark.Proofs.Engine.Agreement
import Shelfmark.Proofs.Engine.Interleavings
import Shelfmark.Proofs.Engine.Scan
import Shelfmark.Proofs.Engine.Recall
import Shelfmark.Proofs.Engine.SoundRecords
import Shelfmark.Proofs.Index.Reloading
import Shelfmark.Proofs.Engine.Misses
import Shelfmark.Proofs.Engine.Bookshelf
import Shelfmark.Proofs.Engine.Expiry
import Shelfmark.Proofs.Search.Facets
import Shelfmark.Proofs.Service.Importing
import Shelfmark.Proofs.Engine.SingleFlight
import Shelfmark.Proofs.Engine.Outdated
import Shelfmark.Proofs.Query.Keys
import Shelfmark.Proofs.Query.Lines
import Shelfmark.Proofs.Query.Specials
import Shelfmark.Proofs.Query.Sidebar
import Shelfmark.Proofs.Query.Quoted
import Shelfmark.Proofs.Search.Named
import Shelfmark.Proofs.Search.Tokens
import Shelfmark.Proofs.Search.Growing
import Shelfmark.Proofs.Similarity.Places
import Shelfmark.Proofs.Similarity.Selection
import Shelfmark.Proofs.Similarity.Signals
import Shelfmark.Proofs.Similarity.Related
import Shelfmark.Proofs.Engine.Listings
import Shelfmark.Proofs.Similarity.Addresses
import Shelfmark.Proofs.Chrome.Files
import Shelfmark.Proofs.Engine.Precomputing
import Shelfmark.Proofs.Text.Tokens
