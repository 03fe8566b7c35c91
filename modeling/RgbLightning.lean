import RgbLightning.Payments.Forwarded
import RgbLightning.Store.Fence
import RgbLightning.Store.Removal
import RgbLightning.Store.Quiescence
import RgbLightning.Startup.Attempts
import RgbLightning.Store.CommonConfig
import RgbLightning.Store.RoundTrip
import RgbLightning.Apay.Commitment
import RgbLightning.Transfer.Delivery
import RgbLightning.Transfer.Consignments
import RgbLightning.Transfer.Media
import RgbLightning.Sweep.Spender
import RgbLightning.Swap.Finality
import RgbLightning.Payments.Settlement
import RgbLightning.Node.VirtualChannel
import RgbLightning.Signer.Dbids
import RgbLightning.Signer.Validation
import RgbLightning.Browser.Invoices
import RgbLightning.Browser.NextIndex
import RgbLightning.Browser.RgbPayments
import RgbLightning.Browser.ChainSync
import RgbLightning.Browser.SweepRecords
import RgbLightning.Browser.ChainApply
import RgbLightning.Browser.Monitors
import RgbLightning.Browser.ReplicatorDrains
import RgbLightning.Gateway.Numbering
import RgbLightning.Gateway.Relay
import RgbLightning.Backup.Restore
import RgbLightning.Browser.Transport
import RgbLightning.Swap.Authorization
import RgbLightning.Swap.Poisoning
import RgbLightning.Store.Acknowledged
import RgbLightning.Browser.Hydration
import RgbLightning.Browser.Apay
import RgbLightning.Apay.RequestInvoice
import RgbLightning.Node.Revocation
import RgbLightning.Swap.Offers
import RgbLightning.Node.FeeEstimates
