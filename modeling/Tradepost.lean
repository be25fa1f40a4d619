import Tradepost.Node.Desk
import Tradepost.Node.Upkeep
import Tradepost.OfferId
import Tradepost.Proofs.Edit.Rejection
import Tradepost.Proofs.Edit.Revision
import Tradepost.Proofs.Edit.Validity
import Tradepost.Proofs.Node.Dialogue
import Tradepost.Proofs.Node.Edited
import Tradepost.Proofs.Node.Hearsay
import Tradepost.Proofs.Node.Lifetime
import Tradepost.Proofs.Node.Run
import Tradepost.Proofs.Node.Origin
import Tradepost.Proofs.Node.OwnPrices
import Tradepost.Proofs.Node.Resaved
import Tradepost.Proofs.Node.Serializable
import Tradepost.Proofs.Number.Magnitude
import Tradepost.Proofs.Number.Value
import Tradepost.Proofs.Offer.Listing
import Tradepost.Proofs.Offer.Pricing
import Tradepost.Proofs.Price
import Tradepost.Proofs.Price.Scaling
import Tradepost.Proofs.Registry.Phase
import Tradepost.Proofs.Registry.Refusal
import Tradepost.Proofs.Registry.Shown
import Tradepost.Proofs.Web.Created
import Tradepost.Settings
import Tradepost.Uuid
import Tradepost.Web.Address
import Tradepost.Web.Server
import Tradepost.Proofs.Node.Found
import Tradepost.Proofs.Registry.Echo
import Tradepost.Proofs.Web.Stranger
import Tradepost.Proofs.Node.Retried
import Tradepost.Proofs.Offer.Ordering
import Tradepost.Proofs.Node.Spelled
import Tradepost.Proofs.Offer.Margin
import Tradepost.Proofs.Node.Stricter
import Tradepost.Proofs.Node.Answer
import Tradepost.Proofs.Node.Compared
import Tradepost.Proofs.Node.FeePreference
import Tradepost.Proofs.OfferId
import Tradepost.Proofs.Text.Blank
import Tradepost.Proofs.Web.Codes
import Tradepost.Proofs.Web.Date
import Tradepost.Proofs.Web.Margin
