import StockRegister.Main
import StockRegister.Model
import StockRegister.Startup
import StockRegister.Proofs.Verdict
import StockRegister.Proofs.Record
import StockRegister.Web.Serving
import StockRegister.Proofs.StoreOrder
import StockRegister.Proofs.Errands
import StockRegister.Proofs.FreshIds
import StockRegister.Proofs.Fields
import StockRegister.Proofs.Soundness
import StockRegister.Proofs.Draws
import StockRegister.Proofs.Lifetime
import StockRegister.Proofs.Creation
import StockRegister.Proofs.Names
import StockRegister.Proofs.Acts
import StockRegister.Proofs.RunEvents
import StockRegister.Proofs.ReadBack
import StockRegister.Proofs.Service
import StockRegister.Proofs.Answers
import StockRegister.Proofs.Requests
import StockRegister.Proofs.Integers
import StockRegister.Proofs.Ranking
import StockRegister.Proofs.Replies
import StockRegister.Proofs.Commuting
import StockRegister.Proofs.Starting
import StockRegister.Proofs.Merging
import StockRegister.Proofs.Overlays
import StockRegister.Proofs.Percent
import StockRegister.Proofs.Addresses
import StockRegister.Proofs.RunMetrics
import StockRegister.Proofs.CommandLine
import StockRegister.Proofs.RoundTrip
import StockRegister.Proofs.Bypassing
import StockRegister.Proofs.RawIds
import StockRegister.Proofs.DeepMerge
import StockRegister.Proofs.Gainers
import StockRegister.Proofs.Refusals
import StockRegister.Proofs.TopLists
import StockRegister.Proofs.Revisions
import StockRegister.Proofs.PriceHistory
import StockRegister.Proofs.Seeding
import StockRegister.Proofs.Spellings
import StockRegister.Proofs.SeededFailures
import StockRegister.Proofs.WritingBack
import StockRegister.Proofs.Searching
import StockRegister.Proofs.RuleListing
import StockRegister.Proofs.Handover
