import BuildDelivery.Catalog.Memory
import BuildDelivery.Connection
import BuildDelivery.Main
import BuildDelivery.Proofs.Delta.Untrusted
import BuildDelivery.Proofs.Delta.Canonical
import BuildDelivery.Proofs.Service.Independence
import BuildDelivery.Proofs.Service.Convergence
import BuildDelivery.Proofs.Service.Clients
import BuildDelivery.Proofs.Service.Reply
import BuildDelivery.Proofs.Manifest.Fingerprint
import BuildDelivery.Wire.Codec
import BuildDelivery.Proofs.Wire.Front
import BuildDelivery.Proofs.Wire.Codec
import BuildDelivery.Proofs.Connection
import BuildDelivery.Proofs.Catalog.Interleaving
import BuildDelivery.Proofs.Service.Succession
import BuildDelivery.Proofs.Catalog.Directory
import BuildDelivery.Proofs.Exchange.Relay
import BuildDelivery.Proofs.Wire.Decoding
import BuildDelivery.Proofs.Wire.Resync
import BuildDelivery.Proofs.Manifest.Editing
import BuildDelivery.Proofs.Manifest.Indices
import BuildDelivery.Proofs.Installation.Scan
import BuildDelivery.Proofs.Delta.Minimal
import BuildDelivery.Proofs.Delta.Order
import BuildDelivery.Proofs.Delta.Fetch
import BuildDelivery.Proofs.Installation.Verification
import BuildDelivery.Proofs.Manifest.Reading
import BuildDelivery.Proofs.Delta.Interruptible
import BuildDelivery.Proofs.Manifest.Offsets
import BuildDelivery.Proofs.Installation.Preallocation
import BuildDelivery.Proofs.Manifest.Building
import BuildDelivery.Proofs.Wire.Header
import BuildDelivery.Proofs.Installation.Confinement
import BuildDelivery.Proofs.Catalog.Naming
